import PccGateway.BodyRefinement

namespace PccGateway

/-- What a body stream is for: chunks are read in the order in which they were fed, and not more than
`maxBytes` bytes are accepted. The flag follows the bytes that wait. -/
structure ByteStream where
  maxBytes : Int
  marks : Hysteresis Int
  polling : Bool
  unread : List Bytes := []
  received : Nat := 0
  full : Bool := false
  ended : Bool := false
  cancelled : Bool := false
  closed : Bool := false

namespace ByteStream

def level (queue : List Bytes) : Int := ((queue.map List.length).sum : Nat)

/-- The queue is replaced. -/
def requeue (queue : List Bytes) (stream : ByteStream) : ByteStream :=
  { stream with unread := queue, full := (stream.marks.step stream.full (level queue)).1 }

def feed (data : Bytes) : Method ByteStream Exn Bool := fun stream =>
  if stream.ended ∨ stream.cancelled ∨ stream.closed then
    (stream, .error (.runtime "body stream is not accepting data"))
  else if stream.maxBytes < (stream.received + data.length : Nat) then
    (stream, .error (.value "request body limit exceeded"))
  else if data = [] then (stream, .ok stream.full)
  else
    let next := { stream with received := stream.received + data.length }.requeue (stream.unread ++ [data])
    (next, .ok next.full)

def readChunk : Thread ByteStream Exn (Option Bytes) := fun stream =>
  if stream.cancelled then (stream, .error (.raised (.runtime "request body was cancelled")))
  else
    match stream.unread with
    | data :: rest => (stream.requeue rest, .ok (some data))
    | [] =>
      if stream.ended ∨ stream.closed then (stream, .ok none)
      else if stream.polling then (stream, .ok (some []))
      else (stream, .error .parked)

def finish (stream : ByteStream) : ByteStream := { stream with ended := true }

def cancel (stream : ByteStream) : ByteStream := { stream.requeue [] with cancelled := true }

def close (stream : ByteStream) : ByteStream :=
  if stream.closed then stream else { stream.requeue [] with closed := true }

end ByteStream

/-- A pass of `read`. -/
def readPass {σ : Type} (readChunk : Thread σ Exn (Option Bytes)) (polling : Bool) (limit : Int)
    (output : Bytes) :
    Thread σ Exn (Thread.Pass Bytes Bytes) := do
  match ← readChunk with
  | none => return .done output
  | some chunk =>
    if chunk = [] ∧ polling = true then return .done output
    else if 0 ≤ limit ∧ limit < (output.length + chunk.length : Nat) then
      Thread.raise (.value "body read limit exceeded")
    else return .again (output ++ chunk)

/-- `read`: chunks are read until there is none. -/
def readAll {σ : Type} (readChunk : Thread σ Exn (Option Bytes)) (polling : Bool) (limit : Int)
    (fuel : Nat) :
    Thread σ Exn Bytes := Thread.loop (readPass readChunk polling limit) fuel []

/-- Every pass but the last takes a chunk. -/
def ByteStream.read (limit : Int) : Thread ByteStream Exn Bytes := fun stream =>
  readAll readChunk stream.polling limit (stream.unread.length + 1) stream

namespace BodyStream

/-- The stream behaves as a queue without an index. -/
structure Streams (body : BodyStream) (stream : ByteStream) : Prop where
  watched : body.Watched
  maxBytes : stream.maxBytes = body.maxBytes
  low : stream.marks.low = body.lowWatermark
  high : stream.marks.high = body.highWatermark
  polling : stream.polling = !body.streaming
  unread : stream.unread = body.chunks.drop body.readIndex
  received : stream.received = body.received
  full : stream.full = body.backpressured
  ended : stream.ended = body.ended
  cancelled : stream.cancelled = body.cancelled
  closed : stream.closed = body.closed

variable {body : BodyStream} {stream : ByteStream}

theorem Streams.level (streams : body.Streams stream) :
    ByteStream.level stream.unread = body.queuedBytes := by
  rw [streams.unread, streams.watched.queued]
  rfl

theorem Streams.settled (streams : body.Streams stream) :
    stream.marks.Settled stream.full (ByteStream.level stream.unread) := by
  rw [streams.level, streams.full]
  have settled := streams.watched.settled
  exact ⟨fun on => streams.low ▸ settled.above on, fun off => streams.high ▸ settled.below off⟩

/-- The queue of the stream is replaced by one that the marks allow. -/
theorem Streams.requeue (streams : body.Streams stream) {next : BodyStream} {queue : List Bytes}
    (watched : next.Watched)
    (settings : (next.maxBytes, next.lowWatermark, next.highWatermark, next.streaming, next.ended) =
      (body.maxBytes, body.lowWatermark, body.highWatermark, body.streaming, body.ended))
    (unread : queue = next.chunks.drop next.readIndex)
    (flag : (stream.marks.step stream.full (ByteStream.level queue)).1 = next.backpressured)
    {received : Nat} (counted : received = next.received) {cancelled closed : Bool}
    (cancels : cancelled = next.cancelled) (closes : closed = next.closed) :
    next.Streams { stream.requeue queue with
      received := received, cancelled := cancelled, closed := closed } := by
  simp only [Prod.mk.injEq] at settings
  obtain ⟨maxBytes, low, high, streaming, ended⟩ := settings
  exact ⟨watched, streams.maxBytes.trans maxBytes.symm, streams.low.trans low.symm,
    streams.high.trans high.symm,
    streams.polling.trans (by rw [streaming]), unread, counted, flag, streams.ended.trans ended.symm,
    cancels, closes⟩

theorem Streams.feed (data : Bytes) :
    Method.Simulates Streams (BodyStream.feed data) (ByteStream.feed data) := by
  intro body stream streams
  have watched := streams.watched.feed data
  unfold BodyStream.feed at watched ⊢
  unfold ByteStream.feed
  have isOver : (stream.ended = true ∨ stream.cancelled = true ∨ stream.closed = true) ↔
      (body.ended = true ∨ body.cancelled = true ∨ body.closed = true) := by
    rw [streams.ended, streams.cancelled, streams.closed]
  have full : stream.maxBytes < (stream.received + data.length : Nat) ↔
      body.maxBytes < (body.received + data.length : Nat) := by
    rw [streams.maxBytes, streams.received]
  by_cases opened : body.ended = true ∨ body.cancelled = true ∨ body.closed = true
  · rw [if_pos opened, if_pos (isOver.mpr opened)]
    exact ⟨streams, rfl⟩
  · rw [if_neg opened] at watched ⊢
    rw [if_neg (isOver.not.mpr opened)]
    by_cases fits : body.maxBytes < (body.received + data.length : Nat)
    · rw [if_pos fits, if_pos (full.mpr fits)]
      exact ⟨streams, rfl⟩
    · rw [if_neg fits] at watched ⊢
      rw [if_neg (full.not.mpr fits)]
      by_cases filled : data = []
      · rw [if_pos filled, if_pos filled]
        exact ⟨streams, by rw [streams.full]⟩
      · rw [if_neg filled] at watched ⊢
        rw [if_neg filled]
        have level : ByteStream.level (stream.unread ++ [data]) =
            (body.queuedBytes + data.length : Nat) := by
          have before := streams.level
          simp only [ByteStream.level] at before ⊢
          rw [List.map_append, List.sum_append]
          simp only [List.map_cons, List.map_nil, List.sum_cons, List.sum_nil]
          omega
        have flag : (stream.marks.step stream.full (ByteStream.level (stream.unread ++ [data]))).1 =
            (body.backpressured || decide (body.highWatermark ≤
              ((body.queuedBytes + data.length : Nat) : Int))) := by
          have grows : ByteStream.level stream.unread ≤ ByteStream.level (stream.unread ++ [data]) := by
            rw [level, streams.level]
            omega
          rw [streams.settled.grow_flag grows, level, streams.full, streams.high]
        have queue : stream.unread ++ [data] = (body.chunks ++ [data]).drop body.readIndex := by
          rw [streams.unread, List.drop_append_of_le_length streams.watched.inside]
        exact ⟨streams.requeue watched rfl queue flag (congrArg (· + data.length) streams.received)
          streams.cancelled
          streams.closed, congrArg Except.ok flag.symm⟩

theorem Streams.take (streams : body.Streams stream) {data : Bytes} {rest : List Bytes}
    (front : stream.unread = data :: rest) :
    body.chunks[body.readIndex]? = some data ∧ (body.take data).Streams (stream.requeue rest) := by
  have unread := streams.unread
  rw [front] at unread
  have found : body.chunks[body.readIndex]? = some data := by
    rw [← List.head?_drop, ← unread]
    rfl
  have behind : rest = body.chunks.drop (body.readIndex + 1) := by
    rw [← List.tail_drop, ← unread]
    rfl
  have level : ByteStream.level rest = (body.queuedBytes - data.length : Nat) := by
    have before := streams.level
    rw [front] at before
    simp only [ByteStream.level, List.map_cons, List.sum_cons] at before ⊢
    omega
  have flag : (stream.marks.step stream.full (ByteStream.level rest)).1 =
      (body.take data).backpressured := by
    have drains : ByteStream.level rest ≤ ByteStream.level stream.unread := by
      rw [level, streams.level]
      omega
    rw [streams.settled.drain_flag drains, level, streams.full, streams.low]
    rfl
  have queue : rest = (body.take data).chunks.drop (body.take data).readIndex := by
    simp only [BodyStream.take]
    split
    · exact behind
    · exact behind
  exact ⟨found, streams.requeue (streams.watched.take found) rfl queue flag streams.received
    streams.cancelled streams.closed⟩

theorem Streams.readChunk : Method.Simulates Streams BodyStream.readChunk ByteStream.readChunk := by
  intro body stream streams
  unfold BodyStream.readChunk ByteStream.readChunk
  rw [streams.cancelled]
  split
  · exact ⟨streams, rfl⟩
  · cases front : stream.unread with
    | cons data rest =>
      obtain ⟨found, taken⟩ := streams.take front
      rw [found]
      exact ⟨taken, rfl⟩
    | nil =>
      have none : body.chunks[body.readIndex]? = none := by
        rw [← List.head?_drop, ← streams.unread, front]
        rfl
      rw [none, streams.ended, streams.closed, streams.polling]
      simp only
      split
      · exact ⟨streams, rfl⟩
      · cases body.streaming
        · exact ⟨streams, rfl⟩
        · exact ⟨streams, rfl⟩

theorem Streams.finish (streams : body.Streams stream) : body.finish.Streams stream.finish :=
  ⟨streams.watched.perform .finish, streams.maxBytes, streams.low, streams.high, streams.polling,
    streams.unread, streams.received, streams.full, rfl, streams.cancelled, streams.closed⟩

/-- An empty queue lowers the flag. -/
theorem Streams.empties (streams : body.Streams stream) :
    (stream.marks.step stream.full (ByteStream.level [])).1 = false := by
  have drains : ByteStream.level [] ≤ ByteStream.level stream.unread := by
    rw [streams.level]
    exact Int.natCast_nonneg _
  rw [streams.settled.drain_flag drains, streams.low,
      decide_eq_true (show ByteStream.level [] ≤ body.lowWatermark from
    streams.watched.low_nonneg), Bool.not_true, Bool.and_false]

theorem Streams.cancel (streams : body.Streams stream) : body.cancel.Streams stream.cancel :=
  streams.requeue (streams.watched.perform .cancel) rfl rfl streams.empties streams.received rfl
    streams.closed

theorem Streams.close (streams : body.Streams stream) : body.close.Streams stream.close := by
  have watched : body.close.Watched := streams.watched.perform .close
  unfold BodyStream.close at watched ⊢
  unfold ByteStream.close
  rw [streams.closed]
  split
  · exact streams
  · rename_i opened
    rw [if_neg opened] at watched
    exact streams.requeue watched rfl rfl streams.empties streams.received streams.cancelled rfl

end BodyStream

/-- A body stream in a program: what else holds segments, every view that the stream has retained, the
chunks that it accepted and the chunks that `read_chunk` returned. -/
structure BodyRun where
  body : RetainedBody
  holders : List (Nat × Bool) := []
  retained : List Nat := []
  fed : List Bytes := []
  returned : List Bytes := []

namespace BodyRun

def holding (run : BodyRun) : Holding := ⟨run.body.heap, run.holders⟩

def feed (data : BodyChunk) : Method BodyRun Exn Bool := fun run =>
  match RetainedBody.feedLocked data run.body with
  | (body, .error error) => ({ run with body := body }, .error error)
  | (body, .ok false) => ({ run with body := body }, .ok body.backpressured)
  | (body, .ok true) =>
    ({ run with
        body := body
        retained := run.retained ++ (body.chunks.drop run.body.chunks.length).filterMap BodyChunk.viewed
        fed := run.fed ++ [data.content run.body.heap] }, .ok body.backpressured)

def finish (run : BodyRun) : BodyRun := { run with body := run.body.finishLocked }

def readChunk : Thread BodyRun Exn (Option Bytes) := fun run =>
  match run.body.readLocked with
  | (body, .cancelled) =>
    ({ run with body := body }, .error (.raised (.runtime "request body was cancelled")))
  | (body, .taken chunk _) =>
    match chunk.handOver body.heap with
    | (heap, .error error) => ({ run with body := { body with heap := heap } }, .error (.raised error))
    | (heap, .ok data) =>
      ({ run with body := { body with heap := heap }, returned := run.returned ++ [data] }, .ok (some data))
  | (body, .isOver) => ({ run with body := body }, .ok none)
  | (body, .polled) => ({ run with body := body }, .ok (some []))
  | (body, .wait) => ({ run with body := body }, .error .parked)

def read (limit : Int) : Thread BodyRun Exn Bytes := fun run =>
  readAll readChunk (!run.body.streaming) limit (run.body.unread.length + 1) run

/-- The loop behind the lock of `cancel` and `close`. -/
def release (chunks : List BodyChunk) : Method BodyRun Exn Unit :=
  Method.on (fun run => run.body.heap) (fun heap run => { run with body := { run.body with heap := heap } })
    (Method.each BodyChunk.drop chunks)

def cancel : Method BodyRun Exn Unit := fun run =>
  let (body, chunks) := run.body.cancelLocked
  release chunks { run with body := body }

def close : Method BodyRun Exn Unit := fun run =>
  match run.body.closeLocked with
  | none => (run, .ok ())
  | some (body, chunks) => release chunks { run with body := body }

/-- What other code does with segments and views. -/
def interfere (op : Holding.Op) (run : BodyRun) : BodyRun :=
  let next := run.holding.perform op
  { run with body := { run.body with heap := next.heap }, holders := next.holders }

/-- The run behaves as the byte stream. Of the views it retained exactly those are released that are
not queued any more, and as long as nothing was given up, every accepted chunk was returned or is
queued. -/
structure Refined (run : BodyRun) (stream : ByteStream) (datas : List Bytes) : Prop where
  represents : run.body.Represents run.holding.direct datas
  streams : (run.body.bytewise datas).Streams stream
  tracks : run.body.heap.Tracks run.retained (· ∈ run.body.pending)
  listed : ∀ id ∈ run.body.chunks.filterMap BodyChunk.viewed, id ∈ run.retained
  filled : ∀ data ∈ stream.unread, data ≠ []
  accepted : ∀ data ∈ run.fed, data ≠ []
  bounded : (run.body.received : Int) ≤ run.body.maxBytes
  given : run.body.cancelled = true ∨ run.body.closed = true → run.body.unread = []
  ordered : run.body.cancelled = false → run.body.closed = false →
    run.fed = run.returned ++ stream.unread ∧
      run.body.received = run.body.consumedBytes + run.body.queuedBytes

def Refines (run : BodyRun) (stream : ByteStream) : Prop := ∃ datas, run.Refined stream datas

variable {run : BodyRun} {stream stream' : ByteStream} {datas : List Bytes}

theorem Refined.unread (refined : run.Refined stream datas) :
    stream.unread = datas.drop run.body.readIndex :=
  refined.streams.unread

theorem Refined.stays (refined : run.Refined stream datas)
    (streams : (run.body.bytewise datas).Streams stream') :
    run.Refined stream' datas := by
  have same : stream'.unread = stream.unread := streams.unread.trans refined.unread.symm
  exact ⟨refined.represents, streams, refined.tracks, refined.listed, same ▸ refined.filled,
    refined.accepted, refined.bounded, refined.given, same ▸ refined.ordered⟩

/-- The chunk that was retained is the only one that came to be pending. -/
theorem tracks_own {heap next : Heap} {retained : List Nat} {pending : Nat → Prop} {own : BodyChunk}
    {data : Bytes} (tracks : heap.Tracks retained pending) (held : own.Holds next data)
    (keeps : ∀ gone, heap.Keeps gone next)
    (fresh : ∀ id, own.viewed = some id → id = heap.views.length) :
    next.Tracks (retained ++ [own].filterMap BodyChunk.viewed)
      (fun id => pending id ∨ id ∈ [own].filterMap BodyChunk.viewed) := by
  cases own with
  | bytes own =>
    simp only [show [BodyChunk.bytes own].filterMap BodyChunk.viewed = [] from rfl, List.append_nil,
      List.not_mem_nil, or_false]
    exact tracks.keeps (keeps fun _ => False) (fun _ _ => not_false) fun _ _ => False.elim
  | view id =>
    have new : id = heap.views.length := fresh id rfl
    subst new
    simp only [show [BodyChunk.view heap.views.length].filterMap BodyChunk.viewed =
      [heap.views.length] from rfl, List.mem_singleton]
    exact tracks.retain (keeps _) held

theorem Refines.feed (refines : run.Refines stream) (data : BodyChunk) :
    (BodyRun.feed data run).1.Refines (ByteStream.feed (data.content run.body.heap) stream).1 ∧
      (BodyRun.feed data run).2 = (ByteStream.feed (data.content run.body.heap) stream).2 ∧
      ∀ error, (BodyRun.feed data run).2 = .error error → (BodyRun.feed data run).1 = run := by
  obtain ⟨datas, refined⟩ := refines
  obtain ⟨streams, same⟩ := BodyStream.Streams.feed (data.content run.body.heap) _ _ refined.streams
  rcases RetainedBody.feedLocked_cases refined.represents data with ⟨error, here, there⟩ |
    ⟨empty, here, there⟩ |
    ⟨filled, opened, fits, next, own, here, there, represents, pushed, unread, held, keeps, fresh⟩
  · rw [there] at streams same
    simp only [BodyRun.feed, here]
    exact ⟨⟨datas, refined.stays streams⟩, same, fun _ _ => trivial⟩
  · rw [there] at streams same
    simp only [BodyRun.feed, here]
    exact ⟨⟨datas, refined.stays streams⟩, same, nofun⟩
  · rw [there] at streams same
    simp only [BodyRun.feed, here]
    refine ⟨⟨datas ++ [data.content run.body.heap], ?_⟩, same, nofun⟩
    obtain ⟨chunks, index, added⟩ := RetainedBody.push_added pushed
    have queue : (ByteStream.feed (data.content run.body.heap) stream).1.unread =
        stream.unread ++ [data.content run.body.heap] := by
      have inside : run.body.readIndex ≤ datas.length := refined.represents.watched.inside
      have after : _ = (datas ++ [data.content run.body.heap]).drop next.readIndex := streams.unread
      rw [after, index, List.drop_append_of_le_length inside, refined.unread]
    have pending : next.pending = run.body.pending ++ [own].filterMap BodyChunk.viewed := by
      rw [RetainedBody.pending, unread, List.filterMap_append]
      rfl
    rw [added]
    refine ⟨represents, streams, ?_, ?_, ?_, ?_, ?_, ?_, ?_⟩
    · simp only [pending, List.mem_append]
      exact tracks_own refined.tracks held keeps fresh
    · simp only [chunks, List.filterMap_append, List.mem_append]
      exact fun id => Or.imp_left (refined.listed id)
    · rw [queue]
      exact List.forall_mem_append.mpr ⟨refined.filled, by simpa using filled⟩
    · exact List.forall_mem_append.mpr ⟨refined.accepted, by simpa using filled⟩
    · rw [pushed]
      exact fits
    · intro isOver
      rw [pushed] at isOver
      simp only [RetainedBody.isOver, Bool.or_eq_false_iff] at opened
      simp [RetainedBody.push, opened] at isOver
    · intro running open_
      rw [pushed] at running open_
      obtain ⟨fed, counted⟩ := refined.ordered running open_
      refine ⟨by rw [queue, fed, List.append_assoc], ?_⟩
      rw [pushed]
      simp only [RetainedBody.push]
      omega

theorem Refines.readChunk : Method.Simulates Refines BodyRun.readChunk ByteStream.readChunk := by
  rintro run stream ⟨datas, refined⟩
  obtain ⟨streams, same⟩ := BodyStream.Streams.readChunk _ _ refined.streams
  rcases RetainedBody.readLocked_cases refined.represents with ⟨-, here, there⟩ |
    ⟨running, chunk, rest, data, left, front, here, there, held, queue, represents, behind⟩ |
      ⟨-, -, -, here, there⟩ | ⟨-, -, -, here, there⟩ | ⟨-, -, -, here, there⟩
  · rw [there] at streams same
    simp only [BodyRun.readChunk, here]
    exact ⟨⟨datas, refined.stays streams⟩, same⟩
  · rw [there] at streams same
    obtain ⟨heap, handed, sound, keeps, isOver⟩ := held.handOver represents.sound
    simp only [BodyRun.readChunk, here, show chunk.handOver (run.body.take chunk).heap = _ from handed]
    refine ⟨⟨left, ?_⟩, same⟩
    have tracks := refined.tracks
    have nodup := refined.represents.nodup
    simp only [RetainedBody.pending, front] at tracks nodup
    have after : (run.body.take chunk).pending = rest.filterMap BodyChunk.viewed := by
      rw [RetainedBody.pending, behind]
    have unread : stream.unread = data :: (ByteStream.readChunk stream).1.unread := by
      rw [refined.unread, queue, streams.unread]
      rfl
    have size : chunk.length run.body.heap = data.length := held.length refined.represents.sound
    refine ⟨represents.keeps sound keeps ?_, streams, ?_, ?_, ?_, refined.accepted, refined.bounded, ?_, ?_⟩
    · intro id member is
      rw [after] at member
      rw [List.filterMap_cons_some is] at nodup
      exact (List.nodup_cons.mp nodup).1 member
    · exact (BodyChunk.tracks_first nodup tracks keeps isOver).congr fun id => by rw [← after]; rfl
    · intro id member
      obtain ⟨other, among, is⟩ := List.mem_filterMap.mp member
      exact refined.listed id (List.mem_filterMap.mpr ⟨other, RetainedBody.take_chunks chunk among, is⟩)
    · have filled := refined.filled
      rw [unread] at filled
      exact (List.forall_mem_cons.mp filled).2
    · intro isOver
      have none := refined.given isOver
      rw [front] at none
      cases none
    · intro running open_
      obtain ⟨fed, counted⟩ := refined.ordered running open_
      refine ⟨?_, ?_⟩
      · simp only
        rw [fed, unread, List.append_assoc]
        rfl
      · have queued : run.body.queuedBytes = ((datas.drop run.body.readIndex).map List.length).sum :=
          refined.represents.watched.queued
        rw [queue, List.map_cons, List.sum_cons] at queued
        simp only [RetainedBody.take, size]
        omega
  · rw [there] at streams same
    simp only [BodyRun.readChunk, here]
    exact ⟨⟨datas, refined.stays streams⟩, same⟩
  · rw [there] at streams same
    simp only [BodyRun.readChunk, here]
    exact ⟨⟨datas, refined.stays streams⟩, same⟩
  · rw [there] at streams same
    simp only [BodyRun.readChunk, here]
    exact ⟨⟨datas, refined.stays streams⟩, same⟩

/-- `None` says that no chunk is left and none will come. -/
theorem readChunk_none {direct : Nat → Nat} (rep : run.body.Represents direct datas)
    (open_ : run.body.closed = false)
    (returns : (BodyRun.readChunk run).2 = .ok none) : run.body.ended = true ∧ run.body.unread = [] := by
  rcases RetainedBody.readLocked_cases rep with ⟨-, here, -⟩ | ⟨-, chunk, rest, data, left, front,
    here, -, held, -⟩ | ⟨-, empty, isOver, -⟩ | ⟨-, -, -, here, -⟩ | ⟨-, -, -, here, -⟩
  · simp [BodyRun.readChunk, here] at returns
  · obtain ⟨heap, handed, -⟩ := held.handOver rep.sound
    simp [BodyRun.readChunk, here, show chunk.handOver (run.body.take chunk).heap = _
      from handed] at returns
  · exact ⟨isOver.resolve_right (by simp [open_]), empty⟩
  · simp [BodyRun.readChunk, here] at returns
  · simp [BodyRun.readChunk, here] at returns

theorem readAll_simulates {σ τ : Type} {R : σ → τ → Prop} {readChunk : Thread σ Exn (Option Bytes)}
    {readChunk' : Thread τ Exn (Option Bytes)} (each : Method.Simulates R readChunk readChunk')
    (polling : Bool) (limit : Int) (fuel : Nat) :
    Method.Simulates R (readAll readChunk polling limit fuel) (readAll readChunk' polling limit fuel) := by
  refine .loop (fun output => .bind each fun result => ?_) fuel []
  cases result with
  | none => exact .pure _
  | some chunk => exact .ite (.pure _) (.ite (.raise _) (.pure _))

theorem Refines.read (limit : Int) :
    Method.Simulates Refines (BodyRun.read limit) (ByteStream.read limit) := by
  intro run stream refines
  have ⟨datas, refined⟩ := refines
  have length : stream.unread.length = run.body.unread.length := by
    rw [refined.unread, refined.represents.holds.length_eq]
  have polling : stream.polling = !run.body.streaming := refined.streams.polling
  unfold BodyRun.read ByteStream.read
  rw [length, polling]
  exact readAll_simulates Refines.readChunk _ _ _ run stream refines

theorem Refines.finish (refines : run.Refines stream) : run.finish.Refines stream.finish := by
  obtain ⟨datas, refined⟩ := refines
  have rep := refined.represents
  exact ⟨datas, ⟨rep.sound, rep.watched.perform .finish, rep.length, rep.holds, rep.nodup⟩,
    refined.streams.finish,
    refined.tracks, refined.listed, refined.filled, refined.accepted, refined.bounded, refined.given,
    refined.ordered⟩

/-- The queue is given up, and all that is left in it is released. -/
theorem Refined.release (refined : run.Refined stream datas) {next : RetainedBody} {chunks : List BodyChunk}
    (represents : next.Represents run.holding.direct []) (streams : (next.bytewise []).Streams stream')
    (heap : next.heap = run.body.heap) (given : ∀ chunk ∈ chunks, chunk ∈ run.body.chunks)
    (all : ∀ chunk ∈ run.body.unread, chunk ∈ chunks) (empty : next.chunks = [])
    (settings : next.received = run.body.received ∧ next.maxBytes = run.body.maxBytes)
    (isOver : next.cancelled = true ∨ next.closed = true) :
    (BodyRun.release chunks { run with body := next }).1.Refines stream' ∧
      (BodyRun.release chunks { run with body := next }).2 = .ok () := by
  have known : ∀ id ∈ chunks.filterMap BodyChunk.viewed, id ∈ run.retained := fun id member => by
    obtain ⟨chunk, among, is⟩ := List.mem_filterMap.mp member
    exact refined.listed id (List.mem_filterMap.mpr ⟨chunk, given chunk among, is⟩)
  have exist : ∀ id ∈ chunks.filterMap BodyChunk.viewed, id < next.heap.views.length := fun id member => by
    obtain ⟨view, found, -⟩ := refined.tracks.released id (known id member)
    exact heap ▸ (List.getElem?_eq_some_iff.mp found).1
  obtain ⟨dropped, run_, sound, keeps, -, released⟩ := BodyChunk.drop_all_spec represents.sound exist
  simp only [BodyRun.release, Method.on, run_]
  have none : next.pending = [] := by simp [RetainedBody.pending, RetainedBody.unread, empty]
  have absent (id : Nat) : id ∉ next.pending := by simp [none]
  have unread : stream'.unread = [] := by
    rw [streams.unread]
    exact List.drop_nil
  refine ⟨⟨[], represents.keeps sound keeps (by simp [none]), streams, ?_, by simp [empty],
    by simp [unread], refined.accepted, ?_,
    fun _ => by simp [RetainedBody.unread, empty], ?_⟩, trivial⟩
  · refine ⟨fun id is => absurd is (absent id), fun id member => ?_⟩
    by_cases among : id ∈ chunks.filterMap BodyChunk.viewed
    · obtain ⟨view, found, gone⟩ := released id among
      exact ⟨view, found, iff_of_true gone (absent id)⟩
    · obtain ⟨view, found, iff⟩ := refined.tracks.released id member
      refine ⟨view, keeps.views id view (heap ▸ found) among, iff_of_true (iff.mpr fun is =>
        among ?_) (absent id)⟩
      obtain ⟨chunk, queued, is⟩ := List.mem_filterMap.mp is
      exact List.mem_filterMap.mpr ⟨chunk, all chunk queued, is⟩
  · simp only [settings]
    exact refined.bounded
  · intro running open_
    rcases isOver with cancelled | closed
    · exact absurd cancelled (by simp [show next.cancelled = false from running])
    · exact absurd closed (by simp [show next.closed = false from open_])

theorem Refines.cancel (refines : run.Refines stream) :
    (BodyRun.cancel run).1.Refines stream.cancel ∧ (BodyRun.cancel run).2 = .ok () := by
  obtain ⟨datas, refined⟩ := refines
  exact refined.release (refined.represents.emptied rfl rfl rfl rfl rfl rfl rfl) refined.streams.cancel rfl
    (fun _ => id) (fun _ => List.mem_of_mem_drop) rfl ⟨rfl, rfl⟩ (.inl rfl)

theorem Refines.close (refines : run.Refines stream) :
    (BodyRun.close run).1.Refines stream.close ∧ (BodyRun.close run).2 = .ok () := by
  have ⟨datas, refined⟩ := refines
  have streams := refined.streams.close
  have closed : stream.closed = run.body.closed := refined.streams.closed
  unfold BodyRun.close RetainedBody.closeLocked
  split
  · rename_i isOver
    split at isOver
    · rename_i already
      rw [ByteStream.close, if_pos (closed.trans already)]
      exact ⟨refines, rfl⟩
    · cases isOver
  · rename_i body chunks found
    split at found
    · cases found
    · rename_i opened
      cases found
      rw [BodyStream.close, if_neg (by exact opened)] at streams
      exact refined.release (refined.represents.emptied rfl rfl rfl rfl rfl rfl rfl) streams rfl
        (fun _ => List.mem_of_mem_drop) (fun _ => id) rfl ⟨rfl, rfl⟩ (.inr rfl)

/-- Other code changes neither the stream's views nor what they show. -/
theorem Refines.interfere (refines : run.Refines stream) {op : Holding.Op}
    (kept : ∀ id ∈ run.body.pending, ¬ op.gone id) :
    (run.interfere op).Refines stream := by
  obtain ⟨datas, refined⟩ := refines
  have rep := refined.represents
  have step := Holding.Sound.perform (show run.holding.Sound from rep.sound) op
  refine ⟨datas, ⟨step.sound, rep.watched, rep.length,
    BodyChunk.holds_keeps rep.holds step.keeps kept, rep.nodup⟩,
    refined.streams, refined.tracks.keeps step.keeps kept ?_, refined.listed, refined.filled,
    refined.accepted, refined.bounded, refined.given, refined.ordered⟩
  intro id member gone
  obtain ⟨view, found, -⟩ := refined.tracks.released id member
  have is := List.getElem?_eq_getElem (Nat.lt_of_lt_of_le (List.getElem?_eq_some_iff.mp found).1 step.grows)
  exact ⟨_, is, step.isOver id _ gone is⟩

inductive Op where
  | outside (op : Holding.Op)
  | feed (data : BodyChunk)
  | finish
  | readChunk
  | read (limit : Int)
  | cancel
  | close

/-- What a call gives. -/
inductive Outcome where
  | none
  | flag (result : Except Exn Bool)
  | chunk (result : Except (Halt Exn) (Option Bytes))
  | bytes (result : Except (Halt Exn) Bytes)
  deriving DecidableEq

/-- One call after another. No other code has the stream's own views. -/
def perform (run : BodyRun) : Op → BodyRun × Outcome
  | .outside (.releaseView view) =>
    if view ∈ run.body.pending then (run, .none) else (run.interfere (.releaseView view), .none)
  | .outside op => (run.interfere op, .none)
  | .feed data => (BodyRun.feed data run).map id .flag
  | .finish => (run.finish, .none)
  | .readChunk => (BodyRun.readChunk run).map id .chunk
  | .read limit => (BodyRun.read limit run).map id .bytes
  | .cancel => ((BodyRun.cancel run).1, .none)
  | .close => ((BodyRun.close run).1, .none)

/-- The same call of a byte stream. -/
def expected (run : BodyRun) (stream : ByteStream) : Op → ByteStream × Outcome
  | .outside _ => (stream, .none)
  | .feed data => (ByteStream.feed (data.content run.body.heap) stream).map id .flag
  | .finish => (stream.finish, .none)
  | .readChunk => (ByteStream.readChunk stream).map id .chunk
  | .read limit => (ByteStream.read limit stream).map id .bytes
  | .cancel => (stream.cancel, .none)
  | .close => (stream.close, .none)

def performAll : List Op → BodyRun → BodyRun × List Outcome
  | [], run => (run, [])
  | op :: ops, run =>
    let (next, outcome) := run.perform op
    let (last, outcomes) := performAll ops next
    (last, outcome :: outcomes)

def expectedAll : List Op → BodyRun → ByteStream → List Outcome
  | [], _, _ => []
  | op :: ops, run, stream =>
    let (next, outcome) := run.expected stream op
    outcome :: expectedAll ops (run.perform op).1 next

theorem Refines.perform (refines : run.Refines stream) (op : Op) :
    (run.perform op).1.Refines (run.expected stream op).1 ∧ (run.perform op).2 =
    (run.expected stream op).2 := by
  cases op with
  | outside op =>
    cases op with
    | releaseView view =>
      unfold BodyRun.perform
      simp only
      split
      · exact ⟨refines, rfl⟩
      · rename_i kept
        exact ⟨refines.interfere fun id member gone => kept ((show id = view from gone) ▸ member), rfl⟩
    | _ => exact ⟨refines.interfere fun _ _ => not_false, rfl⟩
  | feed data =>
    obtain ⟨next, same, -⟩ := refines.feed data
    exact ⟨next, congrArg Outcome.flag same⟩
  | finish => exact ⟨refines.finish, rfl⟩
  | readChunk =>
    obtain ⟨next, same⟩ := Refines.readChunk _ _ refines
    exact ⟨next, congrArg Outcome.chunk same⟩
  | read limit =>
    obtain ⟨next, same⟩ := Refines.read limit _ _ refines
    exact ⟨next, congrArg Outcome.bytes same⟩
  | cancel => exact ⟨refines.cancel.1, rfl⟩
  | close => exact ⟨refines.close.1, rfl⟩

/-- No call changes the limit. -/
def SameLimit (stream next : ByteStream) : Prop := next.maxBytes = stream.maxBytes

instance : IsPreorder ByteStream SameLimit where
  refl := fun _ => rfl
  trans := fun _ _ _ first second => Eq.trans second first

theorem feed_limit (data : Bytes) : Method.Evolves SameLimit (ByteStream.feed data) := by
  intro stream
  unfold ByteStream.feed
  split
  · rfl
  · split
    · rfl
    · split <;> rfl

theorem readChunk_limit : Method.Evolves SameLimit ByteStream.readChunk := by
  intro stream
  unfold ByteStream.readChunk
  split
  · rfl
  · split
    · rfl
    · split
      · rfl
      · split <;> rfl

theorem expected_limit (run : BodyRun) (stream : ByteStream) (op : Op) :
    SameLimit stream (run.expected stream op).1 := by
  cases op with
  | feed data => exact feed_limit _ stream
  | readChunk => exact readChunk_limit stream
  | read limit =>
    have pass (output : Bytes) :
        Method.Evolves SameLimit (readPass ByteStream.readChunk stream.polling limit output) := by
      refine .bind readChunk_limit fun result => ?_
      cases result with
      | none => exact .pure _
      | some chunk => exact .ite (.pure _) (.ite (.raise _) (.pure _))
    exact Method.Evolves.loop pass (stream.unread.length + 1) [] stream
  | close =>
    simp only [expected, ByteStream.close]
    split <;> rfl
  | _ => rfl

theorem Refines.performAll (refines : run.Refines stream) (ops : List Op) :
    (∃ stream', (run.performAll ops).1.Refines stream' ∧ SameLimit stream stream') ∧
      (run.performAll ops).2 = expectedAll ops run stream := by
  induction ops generalizing run stream with
  | nil => exact ⟨⟨stream, refines, rfl⟩, rfl⟩
  | cons op ops ih =>
    obtain ⟨next, same⟩ := refines.perform op
    obtain ⟨⟨last, lastRefines, limit⟩, outcomes⟩ := ih next
    refine ⟨⟨last, lastRefines, limit.trans (expected_limit run stream op)⟩, ?_⟩
    simp only [BodyRun.performAll, expectedAll, same, outcomes]

section Passes
open Method (Ends)

/-- A pass that is not the last one takes a chunk. -/
theorem readPass_takes (limit : Int) (output : Bytes) (stream : ByteStream) :
    Ends (readPass ByteStream.readChunk stream.polling limit output) stream
      (fun pass next =>
        match pass with
        | .again _ => next.polling = stream.polling ∧ next.unread.length < stream.unread.length
        | .done _ => True)
      (fun halt _ => halt ≠ .unfinished) := by
  have read : Ends ByteStream.readChunk stream
      (fun result next => next.polling = stream.polling ∧ ∀ chunk, result = some chunk →
        next.unread.length < stream.unread.length ∨ chunk = [] ∧ stream.polling = true)
      (fun halt _ => halt ≠ .unfinished) := by
    unfold Ends ByteStream.readChunk
    by_cases cancelled : stream.cancelled = true
    · simp [cancelled]
    · rw [if_neg cancelled]
      cases queue : stream.unread with
      | cons data rest => simp [ByteStream.requeue]
      | nil =>
        by_cases isOver : stream.ended = true ∨ stream.closed = true
        · simp [isOver]
        · by_cases polls : stream.polling = true <;> simp [isOver, polls]
  unfold readPass
  rw [Method.ends_bind]
  refine read.mono (fun result next taken => ?_) fun _ _ halts => halts
  cases result with
  | none => trivial
  | some chunk =>
    refine Ends.ite (fun _ => trivial) fun more => Ends.ite (fun _ => nofun) fun _ => ⟨taken.1, ?_⟩
    exact (taken.2 chunk rfl).resolve_right more

theorem readAll_finishes {limit : Int} {fuel : Nat} {output : Bytes} {stream : ByteStream}
    (enough : stream.unread.length < fuel) :
    Ends (Thread.loop (readPass ByteStream.readChunk stream.polling limit) fuel output) stream
      (fun _ _ => True) (fun halt _ => halt ≠ .unfinished) := by
  induction fuel generalizing output stream with
  | zero => omega
  | succ fuel ih =>
    unfold Thread.loop
    rw [Method.ends_bind]
    refine (readPass_takes limit output stream).mono (fun pass next taken => ?_) fun _ _ halts => halts
    cases pass with
    | again output' =>
      obtain ⟨same, fewer⟩ := taken
      exact same ▸ ih (by omega)
    | done result => trivial

end Passes

/-- A new stream is empty. -/
theorem Refines.fresh {maxBytes lowWatermark highWatermark : Int} {streaming : Bool} {body : RetainedBody}
    (start : RetainedBody.init {} maxBytes lowWatermark highWatermark streaming = .ok body) :
    ∃ marks : body.lowWatermark < body.highWatermark,
      Refines { body := body }
        { maxBytes := maxBytes, marks := ⟨body.lowWatermark, body.highWatermark,
          marks⟩, polling := !streaming } := by
  unfold RetainedBody.init at start
  split at start
  · cases start
  · rename_i nonneg
    simp only at start
    generalize (if highWatermark ≤ 0 then (if 0 < maxBytes then maxBytes else 1) else highWatermark) =
      high at start
    split at start
    · cases start
    · rename_i low
      split at start
      · cases start
      · rename_i below
        cases start
        have marks := not_le.mp below
        have watched : BodyStream.Watched
            { maxBytes := maxBytes, lowWatermark := lowWatermark, highWatermark := high, streaming } :=
          ⟨not_lt.mp low, marks, ⟨nofun, fun _ => lt_of_le_of_lt (not_lt.mp low) marks⟩, rfl, le_rfl⟩
        exact ⟨marks, [], ⟨Holding.empty_sound, watched, rfl, .nil, .nil⟩,
          ⟨watched, rfl, rfl, rfl, rfl, rfl, rfl, rfl, rfl, rfl, rfl⟩,
          ⟨by simp [RetainedBody.pending, RetainedBody.unread],
            by simp⟩, by simp, by simp, by simp, by simpa using nonneg, fun _ => rfl, fun _ _ => ⟨rfl, rfl⟩⟩

theorem expectedAll_finishes (ops : List Op) (run : BodyRun) (stream : ByteStream) :
    ∀ outcome ∈ expectedAll ops run stream, outcome ≠ .bytes (.error .unfinished) := by
  induction ops generalizing run stream with
  | nil => simp [expectedAll]
  | cons op ops ih =>
    refine List.forall_mem_cons.mpr ⟨?_, ih _ _⟩
    cases op with
    | read limit =>
      have finishes := @readAll_finishes limit (stream.unread.length + 1) [] stream (Nat.lt_succ_self _)
      intro runs
      have halt : (ByteStream.read limit stream).2 = .error .unfinished := Outcome.bytes.inj runs
      have ran : ByteStream.read limit stream =
          ((ByteStream.read limit stream).1, .error .unfinished) := Prod.ext rfl halt
      unfold Method.Ends at finishes
      rw [show Thread.loop _ _ _ stream = _ from ran] at finishes
      exact finishes rfl
    | _ => exact nofun

/-- Whatever is done with a body stream and around it, one call after another, it gives what a
bounded byte stream without an index gives. Until it is cancelled or closed, the accepted chunks are
those that `read_chunk` returned and those that wait, in this order, and nothing is counted twice or
lost; `None` comes only after `finish`, with everything read. A `feed` that raises changes nothing.
A retained view is released exactly once, when its chunk leaves the queue. What is assumed is that
the constructor has accepted its arguments. One call comes after another here; how calls that
overlap behave is the subject of the handover. -/
theorem refines_stream (maxBytes lowWatermark highWatermark : Int) (streaming : Bool) (body : RetainedBody)
    (start : RetainedBody.init {} maxBytes lowWatermark highWatermark streaming = .ok body)
    (ops : List Op) :
    let run := (performAll ops { body := body }).1
    let outcomes := (performAll ops { body := body }).2
    (∃ marks : body.lowWatermark < body.highWatermark, outcomes = expectedAll ops { body := body }
      { maxBytes := maxBytes, marks := ⟨body.lowWatermark, body.highWatermark,
        marks⟩, polling := !streaming }) ∧
    (∀ outcome ∈ outcomes, outcome ≠ .bytes (.error .unfinished)) ∧
    (run.body.cancelled = false → run.body.closed = false →
      run.fed = run.returned ++ run.body.unread.map (BodyChunk.content run.body.heap) ∧
      run.body.received = run.body.consumedBytes + run.body.queuedBytes ∧
      ((BodyRun.readChunk run).2 = .ok none → run.body.ended = true ∧ run.returned = run.fed)) ∧
    (∀ data ∈ run.fed, data ≠ []) ∧
    run.body.queuedBytes = (run.body.unread.map (BodyChunk.length run.body.heap)).sum ∧
    (run.body.received : Int) ≤ maxBytes ∧
    (∀ data error, (BodyRun.feed data run).2 = .error error → (BodyRun.feed data run).1 = run) ∧
    (∀ id ∈ run.retained, run.body.heap.releases.count id = if id ∈ run.body.pending then 0 else 1) ∧
    (run.body.unread = [] ∨ run.body.cancelled = true ∨ run.body.closed = true →
      ∀ id ∈ run.retained, run.body.heap.releases.count id = 1) := by
  obtain ⟨marks, fresh⟩ := Refines.fresh start
  obtain ⟨⟨stream, refines, limit⟩, outcomes⟩ := fresh.performAll ops
  generalize performAll ops { body := body } = result at *
  obtain ⟨run, seen⟩ := result
  have ⟨datas, refined⟩ := refines
  have rep := refined.represents
  have contents : run.body.unread.map (BodyChunk.content run.body.heap) = stream.unread := by
    rw [BodyChunk.holds_contents rep.sound rep.holds, refined.unread]
  have once : ∀ id ∈ run.retained, run.body.heap.releases.count id = if id ∈ run.body.pending then
      0 else 1 :=
    fun id member => refined.tracks.releases rep.sound member
  refine ⟨⟨marks, outcomes⟩, ?_, ?_, refined.accepted, ?_, ?_, fun data =>
    (refines.feed data).2.2, once, ?_⟩
  · rw [show seen = _ from outcomes]
    exact expectedAll_finishes ops _ _
  · intro running open_
    obtain ⟨fed, counted⟩ := refined.ordered running open_
    refine ⟨by rw [contents]; exact fed, counted, fun returns => ?_⟩
    obtain ⟨ended, empty⟩ := readChunk_none rep open_ returns
    rw [empty, List.map_nil] at contents
    exact ⟨ended, by rw [fed, ← contents, List.append_nil]⟩
  · have queued : run.body.queuedBytes = ((datas.drop run.body.readIndex).map List.length).sum :=
      rep.watched.queued
    rw [queued, ← refined.unread, ← contents, List.map_map]
    refine congrArg List.sum (List.map_congr_left fun chunk _ => ?_)
    exact (BodyChunk.content_length rep.sound chunk).symm
  · rw [← show stream.maxBytes = maxBytes from limit, refined.streams.maxBytes]
    exact refined.bounded
  · intro isOver id member
    have empty : run.body.unread = [] := isOver.elim (fun all => all) refined.given
    rw [once id member, RetainedBody.pending, empty]
    rfl

/-- Sixty-five views and as many reads, so that the chunks are compacted, a chunk that is too long, an
unread view at the end. -/
theorem refines_stream_compacted :
    let ops : List Op :=
      [.outside (.create 2), .outside (.write 0 [7, 8] 0 (-1)), .outside (.view 0 0 1)] ++
      List.replicate 65 (.feed (.view 0)) ++ List.replicate 64 .readChunk ++
      [.feed (.bytes [1, 2, 3]), .outside (.view 0 1 (-1)), .feed (.view 66), .readChunk, .finish,
        .cancel, .readChunk]
    ∃ body, RetainedBody.init {} 66 1 4 true = .ok body ∧
      let run := (performAll ops { body := body }).1
      let outcomes := (performAll ops { body := body }).2
      run.returned = List.replicate 65 [7] ∧ run.fed = List.replicate 65 [7] ++ [[8]] ∧
        run.body.chunks = [] ∧
        outcomes.getLast? = some (.chunk (.error (.raised (.runtime "request body was cancelled")))) ∧
        ∀ id ∈ run.retained, run.body.heap.releases.count id = 1 := by
  refine ⟨_, rfl, ?_⟩
  refine and_assoc.mp (and_assoc.mp (and_assoc.mp ⟨by decide +kernel, ?_⟩))
  exact (refines_stream 66 1 4 true _ rfl _).2.2.2.2.2.2.2.2 (.inr (.inl (by decide +kernel)))

end BodyRun
end PccGateway
