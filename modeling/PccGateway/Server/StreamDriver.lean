import PccGateway.BufferFifo
import PccGateway.Server.ResponseEncoding
import PccGateway.Server.ServingFrame

namespace PccGateway

/-- The bytes of a chunk on the wire, its framing apart. -/
def StreamChunk.encoded : StreamChunk → Bytes
  | .bytes data => data
  | .text value => utf8 value
  | .other => []

/-- A response iterator by the answers of its `next`, of which `none` is `StopIteration`: bytes or
text, and at most 1024 empty ones in a row. -/
structure ResponseIterator where
  next : Nat → Option StreamChunk
  typed : ∀ n, next n ≠ some .other
  sparse : ∀ n, ∃ k ≤ 1024, (next (n + k)).map StreamChunk.encoded ≠ some []

/-- The chunks among the first `count` answers. -/
def ResponseIterator.chunks (iterator : ResponseIterator) (count : Nat) : List Bytes :=
  (List.range count).filterMap fun n => (iterator.next n).map StreamChunk.encoded

/-- The same world, with this answer of the iterator. -/
def World.yielding (world : World) (answer : Option StreamChunk) : World :=
  { world with nextChunk := fun _ => .ok answer }

/-- The exceptions of a world that are not answers: a hook or the clock raised. -/
def World.Raises (world : World) (halt : Halt Exn) : Prop :=
  ∃ error tick, halt = .raised error ∧ (world.hook tick = .error error ∨ world.nowMs tick = .error error)

/-- A call of the driver, or a flush between two of them. -/
inductive StreamCall where
  | drive
  | flush (limit : Int)

/-- A connection that streams, with the bytes that its transport took and the number of answers of the
iterator. -/
structure StreamRun where
  connection : GatewayConnection
  taken : Bytes := []
  asked : Nat := 0

namespace GatewayConnection

/-- Whether `_drive_streaming_response` gets to its `next`. -/
def fetches (connection : GatewayConnection) : Bool :=
  match connection.pendingStream with
  | none => false
  | some stream =>
    match connection.requests[stream.request]? with
    | none => false
    | some object => !object.cancellation.cancelled &&
        decide ((32 : Int) < connection.config.buffers.connectionBytes - connection.output.queuedBytes) &&
        decide (stream.chunk.length ≤ stream.offset)

end GatewayConnection

namespace StreamRun
open Thread GatewayConnection

def onConnection {α : Type} (call : Call α) : Thread StreamRun Exn α :=
  Method.on (·.connection) (fun connection run => { run with connection := connection }) call

/-- One call. The iterator is at its `asked`-th answer. -/
def perform (world : World) (iterator : ResponseIterator) : StreamCall → Thread StreamRun Exn Unit
  | .drive => do
    let run ← Method.get
    Method.modify fun run => { run with asked := run.asked + run.connection.fetches.toNat }
    onConnection (driveStreamingResponse (world.yielding (iterator.next run.asked)))
  | .flush limit => do
    let data ← onConnection (takeOutput world limit)
    Method.modify fun run => { run with taken := run.taken ++ data }

/-- Everything that was written or waits to be. -/
def sent (run : StreamRun) : Bytes := run.taken ++ run.connection.output.contents

end StreamRun

namespace GatewayConnection
open Thread Method

/-- What the driver reads and writes, the output apart. -/
structure StreamState where
  config : GatewayConfig
  pendingStream : Option PendingStream
  requestsCompleted : Nat
  cancellations : List Cancellation

def streamState (connection : GatewayConnection) : StreamState where
  config := connection.config
  pendingStream := connection.pendingStream
  requestsCompleted := connection.requestsCompleted
  cancellations := connection.requests.map (·.cancellation)

/-- The output is open, its limit is the configured one, and the connection's share of the global
budget is what the output holds and `extra`. -/
structure Room (extra : Nat) (connection : GatewayConnection) : Prop where
  valid : connection.output.WellFormed
  opened : connection.output.closed = false
  capacity : connection.output.maxBytes = connection.config.buffers.connectionBytes
  within : connection.output.queuedBytes ≤ connection.config.buffers.connectionBytes
  buffered : connection.buffered = extra + connection.output.queuedBytes

/-- Neither the output nor the state of the stream is touched. -/
def streamView (connection : GatewayConnection) : StreamState × ChannelBuffer × Nat :=
  (connection.streamState, connection.output, connection.buffered)

theorem streamView_parts {before after : GatewayConnection} (same : Fixes streamView before after) :
    after.streamState = before.streamState ∧ after.output = before.output ∧ after.buffered =
      before.buffered := by
  obtain ⟨state, rest⟩ := Prod.mk.inj same
  exact ⟨state, Prod.mk.inj rest⟩

theorem Room.of_view {extra : Nat} {before after : GatewayConnection} (room : Room extra before)
    (same : Fixes streamView before after) : Room extra after := by
  obtain ⟨state, output, buffered⟩ := streamView_parts same
  have config : after.config = before.config := congrArg StreamState.config state
  constructor
  · exact output ▸ room.valid
  · exact output ▸ room.opened
  · rw [output, config]
    exact room.capacity
  · rw [output, config]
    exact room.within
  · rw [output, buffered]
    exact room.buffered

section Quiet
variable {world : World} {α β : Type}

/-- The call touches nothing of a stream, and raises only what the world raises. -/
def Quiet (world : World) (call : Call α) : Prop :=
  ∀ connection, Ends call connection (fun _ after => Fixes streamView connection after)
    (fun halt after => world.Raises halt ∧ Fixes streamView connection after)

namespace Quiet

theorem get : Quiet world get := fun _ => rfl

theorem modify {change : GatewayConnection → GatewayConnection}
    (same : ∀ connection, (change connection).streamView = connection.streamView) :
    Quiet world (modify change) := same

theorem bind {call : Call β} {next : β → Call α} (first : Quiet world call)
    (later : ∀ b, Quiet world (next b)) :
    Quiet world (call >>= next) := by
  intro connection
  refine ends_bind.mpr ((first connection).mono (fun b middle same => ?_) fun _ _ raised => raised)
  exact (later b middle).mono (fun _ _ also => Eq.trans also same) fun _ _ raised =>
    ⟨raised.1, Eq.trans raised.2 same⟩

theorem when {condition : Prop} [Decidable condition] {body : Call Unit} (quiet : Quiet world body) :
    Quiet world (Thread.when condition body) := fun connection =>
      ends_when (fun _ => quiet connection) fun _ => rfl

theorem ite {condition : Prop} [Decidable condition] {first second : Call α} (yes : Quiet world first)
    (no : Quiet world second) :
    Quiet world (if condition then first else second) := fun connection =>
      .ite (fun _ => yes connection) fun _ => no connection

theorem raiseFirst {error : Option Exn}
    (raises : ∀ raised, error = some raised → world.Raises (.raised raised)) :
    Quiet world (Thread.raiseFirst error : Call Unit) := by
  intro connection
  cases error with
  | none => exact rfl
  | some raised => exact ⟨raises raised rfl, rfl⟩

/-- Cleanups catch what they raise, and the first exception is one of the world's. -/
theorem settle {steps : List (Call Unit)} (quiet : ∀ step ∈ steps, Quiet world step)
    (connection : GatewayConnection) :
    Ends (Thread.settle steps : Call (Option Exn)) connection
      (fun error after => (∀ raised, error = some raised → world.Raises (.raised raised)) ∧
        Fixes streamView connection after)
      (fun _ _ => False) := by
  induction steps generalizing connection with
  | nil => exact ⟨nofun, rfl⟩
  | cons step rest ih =>
    have others := ih fun other member => quiet other (List.mem_cons_of_mem _ member)
    refine ends_settle_cons ((quiet step List.mem_cons_self connection).mono (fun _ middle same => ?_)
      fun halt middle raised => ?_)
    · exact (others middle).mono (fun _ _ also => ⟨also.1, Eq.trans also.2 same⟩) fun _ _ => False.elim
    · obtain ⟨⟨error, tick, rfl, source⟩, same⟩ := raised
      exact (others middle).mono (fun _ _ also => ⟨fun _ first => Option.some.inj first ▸
        ⟨error, tick, rfl, source⟩, Eq.trans also.2 same⟩) fun _ _ => False.elim

end Quiet

/-- A change of a request that keeps its cancellation. -/
theorem modify_view {connection : GatewayConnection} {change : RequestObject → RequestObject}
    (id tick : Nat) (kept : ∀ object, (change object).cancellation = object.cancellation) :
    Fixes streamView connection
      { connection with tick := tick, requests := connection.requests.modify id change } := by
  have same : (connection.requests.modify id change).map (·.cancellation) =
      connection.requests.map (·.cancellation) := by
    refine List.ext_getElem? fun place => ?_
    rw [List.getElem?_map, List.getElem?_map, List.getElem?_modify]
    cases connection.requests[place]? with
    | none => rfl
    | some object =>
      refine congrArg some ?_
      dsimp only
      split
      · exact kept object
      · rfl
  exact congrArg (fun cancellations =>
    ({ connection.streamState with cancellations := cancellations }, connection.output,
    connection.buffered)) same

/-- Observations may let a handler child read its body. -/
theorem ask_view {answer : World → Nat → Except Exn α} (connection : GatewayConnection) :
    Ends (ask world answer) connection
      (fun value after => answer world connection.tick = .ok value ∧ Fixes streamView connection after)
      (fun halt after => (∃ error, halt = .raised error ∧ answer world connection.tick = .error error) ∧
        Fixes streamView connection after) := by
  obtain ⟨after, same, run⟩ : ∃ after, Fixes streamView connection after ∧
      ask world answer connection = reraise (answer world connection.tick) after := by
    refine ⟨_, ?_, rfl⟩
    split
    · exact Eq.refl _
    · exact modify_view _ _ fun _ => rfl
  unfold Ends
  rw [run]
  cases answer world connection.tick with
  | ok value => exact ⟨rfl, same⟩
  | error error => exact ⟨⟨error, rfl, rfl⟩, same⟩

theorem hook_quiet : Quiet world (hook world) := fun connection =>
  (ask_view connection).mono (fun _ _ asked => asked.2) fun _ _ asked =>
    ⟨asked.1.imp fun _ raised => ⟨connection.tick, raised.1, .inl raised.2⟩, asked.2⟩

theorem nowMs_quiet : Quiet world (nowMs world) := fun connection =>
  (ask_view connection).mono (fun _ _ asked => asked.2) fun _ _ asked =>
    ⟨asked.1.imp fun _ raised => ⟨connection.tick, raised.1, .inr raised.2⟩, asked.2⟩

theorem restartWriteDeadline_quiet : Quiet world (restartWriteDeadline world) :=
  nowMs_quiet.bind fun _ => .modify fun _ => rfl

theorem closeBody_quiet (id : Nat) : Quiet world (changeBody id BodyStream.close) := fun connection =>
  modify_view id connection.tick fun _ => rfl

theorem retire_quiet : Quiet world (retire world) := .modify fun connection => by split <;> rfl

end Quiet

section Output
variable {world : World} {extra : Nat} {connection : GatewayConnection}

theorem Room.append {data : Bytes} (room : Room extra connection)
    (fits : connection.output.queuedBytes + data.length ≤ connection.config.buffers.connectionBytes) :
    ∃ next transition, connection.output.append data = (next, .ok transition) ∧
      Room extra { connection with output := next, buffered := connection.buffered + data.length } ∧
      next.contents = connection.output.contents ++ data := by
  obtain ⟨next, transition, run, valid, contents, settings⟩ :=
    ChannelBuffer.append_returns room.valid room.opened
    (show connection.output.queuedBytes + data.length ≤ connection.output.maxBytes
      from room.capacity ▸ fits)
  have queued : next.queuedBytes = connection.output.queuedBytes + data.length := by
    rw [valid.queued, contents, List.length_append, room.valid.queued]
  have buffered := room.buffered
  refine ⟨next, transition, run, ⟨valid, ?_, ?_, ?_, ?_⟩, contents⟩
  · exact (congrArg (·.2.2.2.2) settings).trans room.opened
  · exact (congrArg (·.2.2.2.1) settings).trans room.capacity
  · exact queued ▸ fits
  · dsimp only
    omega

/-- Bytes that fit are queued. Nothing but the world raises, unless they do not fit. -/
theorem queueBytes_room (room : Room extra connection) (budget : ∀ tick, extra + world.othersBuffered tick +
      connection.config.buffers.connectionBytes ≤ connection.config.maxBufferedBytes) (data : Bytes) :
    Ends (queueBytes world data) connection
      (fun _ after => Room extra after ∧ after.streamState = connection.streamState ∧
        after.output.contents = connection.output.contents ++ data)
      (fun halt after => Room extra after ∧ (world.Raises halt ∨
        connection.config.buffers.connectionBytes < connection.output.queuedBytes + data.length)) := by
  refine .ite (fun empty => ⟨room, rfl, by rw [empty, List.append_nil]⟩) fun _ => ?_
  have covers := budget connection.tick
  have buffered := room.buffered
  have within := room.within
  by_cases reserves : connection.buffered + world.othersBuffered connection.tick + data.length ≤
    connection.config.maxBufferedBytes
  · refine (ends_bind_run (show reserveBuffered world data.length connection = _ from if_pos
      reserves)).mpr ?_
    change Ends (attempt (onOutput (ChannelBuffer.append data)) >>= _) { connection with
      buffered := connection.buffered + data.length } _ _
    rw [ends_bind, ends_attempt, onOutput, ends_call, ends_on]
    unfold Ends
    by_cases fits : connection.output.queuedBytes + data.length ≤ connection.config.buffers.connectionBytes
    · obtain ⟨next, transition, run, grown, contents⟩ := room.append fits
      rw [run]
      have quiet : Quiet world (do
          note (.queued data)
          let connection ← get
          when (connection.writeDeadlineMs < 0) (restartWriteDeadline world)
          when (transition = .high) (hook world) : Call Unit) :=
        .bind (.modify fun _ => rfl) fun _ => .bind .get fun _ =>
          .bind restartWriteDeadline_quiet.when fun _ => hook_quiet.when
      refine (quiet _).mono (fun _ after same => ?_) fun _ after raised =>
        ⟨grown.of_view raised.2, .inl raised.1⟩
      obtain ⟨state, output, -⟩ := streamView_parts same
      exact ⟨grown.of_view same, state, output ▸ contents⟩
    · rw [ChannelBuffer.append_overflows room.opened (room.capacity ▸ Nat.lt_of_not_le fits)]
      refine (ends_bind_run (show releaseBuffered world data.length _ = _ from if_neg
        (by simp only; omega))).mpr ?_
      refine ⟨?_, .inr (Nat.lt_of_not_le fits)⟩
      simpa using { room with }
  · refine (ends_bind_run (show reserveBuffered world data.length connection = _ from if_neg
      reserves)).mpr ?_
    exact ⟨room, .inr (by omega)⟩

theorem Room.consume {count : Nat} (room : Room extra connection)
    (fits : count ≤ connection.output.queuedBytes) :
    ∃ next transition, connection.output.consume count = (next, .ok transition) ∧
      Room extra { connection with output := next, buffered := connection.buffered - count } ∧
      next.contents = connection.output.contents.drop count := by
  obtain ⟨next, transition, run, valid, contents⟩ := ChannelBuffer.consume_wellFormed room.valid fits
  have settings := ChannelBuffer.consume_settings count connection.output
  rw [run] at settings
  have queued : next.queuedBytes = connection.output.queuedBytes - count := by
    rw [valid.queued, contents, List.length_drop, room.valid.queued]
  have buffered := room.buffered
  have within := room.within
  refine ⟨next, transition, run, ⟨valid, ?_, ?_, ?_, ?_⟩, contents⟩
  · exact (congrArg (·.2.2.2.2) settings).trans room.opened
  · exact (congrArg (·.2.2.2.1) settings).trans room.capacity
  · dsimp only
    omega
  · dsimp only
    omega

/-- What a flush returns was at the front of the queue. -/
theorem takeOutput_room (room : Room extra connection) (limit : Int) :
    Ends (takeOutput world limit) connection
      (fun data after => Room extra after ∧ after.streamState = connection.streamState ∧
        data ++ after.output.contents = connection.output.contents)
      (fun halt after => Room extra after ∧ world.Raises halt) := by
  have shown : connection.peekOutput limit =
      connection.output.contents.take (connection.output.readLength limit) :=
    ChannelBuffer.peekViews_flatten room.valid limit
  have fits : (connection.peekOutput limit).length ≤ connection.output.queuedBytes := by
    rw [shown, List.length_take, room.valid.queued]
    exact Nat.min_le_right _ _
  obtain ⟨next, transition, run, drained, contents⟩ := room.consume fits
  have joined : connection.peekOutput limit ++
      connection.output.contents.drop (connection.peekOutput limit).length =
      connection.output.contents := List.prefix_iff_eq_append.mp (shown ▸ List.take_prefix _ _)
  unfold takeOutput
  rw [get_bind, ends_bind]
  refine .ite (fun none => ?_) fun _ => ?_
  · refine ⟨room, rfl, ?_⟩
    rwa [show (connection.peekOutput limit).length = 0 by omega] at joined
  · rw [ends_bind, onOutput, ends_call, ends_on]
    unfold Ends
    rw [run]
    refine (ends_bind_run (show releaseBuffered world _ _ = _ from if_neg ?_)).mpr ?_
    · have := room.buffered
      simp only [Int.toNat_natCast]
      omega
    have quiet : Quiet world (do
        when (transition = .low) (hook world)
        let connection ← get
        if connection.output.queuedBytes = 0 then
          modify fun connection => { connection with writeDeadlineMs := -1 }
        else restartWriteDeadline world : Call Unit) :=
      .bind hook_quiet.when fun _ => .bind .get fun _ =>
        .ite (.modify fun _ => rfl) restartWriteDeadline_quiet
    refine (quiet _).mono (fun _ after same => ?_) fun _ after raised =>
      ⟨drained.of_view raised.2, raised.1⟩
    obtain ⟨state, output, -⟩ := streamView_parts same
    exact ⟨drained.of_view same, state, by rw [output, contents, joined]⟩

/-- The size line and the two line ends of a chunk of less than a mebibyte. -/
theorem chunk_length_le {data : Bytes} (small : data.length < 16 ^ 5) :
    (Http1ResponseEncoder.chunk data).length ≤ data.length + 9 := by
  have digits : (hexadecimal data.length).length ≤ 5 :=
    (Nat.length_toDigits_le_iff (by decide) (by decide)).mpr small
  unfold Http1ResponseEncoder.chunk
  split
  · exact Nat.zero_le _
  · simp only [List.length_append, List.length_map, show crlf.length = 2 from rfl]
    omega

/-- One call queues one piece of the chunk, of a segment at most. The reserve of 32 bytes covers its
framing. -/
theorem driveStreamChunk_room (room : Room extra connection)
    (budget : ∀ tick, extra + world.othersBuffered tick +
      connection.config.buffers.connectionBytes ≤ connection.config.maxBufferedBytes)
    (segment : connection.config.buffers.segmentBytes ≤ 65536) {stream : PendingStream}
    (free : (32 : Int) < connection.config.buffers.connectionBytes - connection.output.queuedBytes)
    (left : stream.offset < stream.chunk.length) :
    Ends (driveStreamChunk world stream
      (connection.config.buffers.connectionBytes - connection.output.queuedBytes)) connection
      (fun _ after => Room extra after ∧ ∃ piece, piece.length ≤ 65536 ∧
        stream.chunk.drop stream.offset = piece ++ stream.chunk.drop (stream.offset + piece.length) ∧
        after.streamState = { connection.streamState with
          pendingStream := some { stream with offset := stream.offset + piece.length } } ∧
        after.output.contents = connection.output.contents ++ Http1ResponseEncoder.chunk piece)
      (fun halt after => Room extra after ∧ world.Raises halt) := by
  have segmentPos := connection.config.buffers.segment_pos
  unfold driveStreamChunk
  rw [modify_bind, get_bind]
  extract_lets take
  have bounds : 0 < take ∧ take ≤ stream.chunk.length - stream.offset ∧ take ≤ 65536 ∧
      take ≤ connection.config.buffers.connectionBytes - connection.output.queuedBytes - 32 := by
    have known : take =
        min (min ((stream.chunk.length : Int) - stream.offset) connection.config.buffers.segmentBytes)
      ((connection.config.buffers.connectionBytes - connection.output.queuedBytes : Int) - 32) := rfl
    omega
  refine .ite (fun none => absurd none (by omega)) fun _ => ?_
  generalize piece : (stream.chunk.drop stream.offset).take take.toNat = data
  have length : data.length = take.toNat := by
    rw [← piece, List.length_take, List.length_drop]
    omega
  have framed := @chunk_length_le data (by omega)
  rw [modify_bind]
  have room' : Room extra { connection with
      pendingStream := some { stream with offset := stream.offset + take.toNat } } := { room with }
  refine (queueBytes_room room' budget _).mono (fun _ after queued => ?_) fun _ after raised => ?_
  · obtain ⟨nextRoom, state, contents⟩ := queued
    refine ⟨nextRoom, data, by omega, ?_, ?_, contents⟩
    · rw [length, ← piece, ← List.drop_drop, List.take_append_drop]
    · rw [state, length]
      rfl
  · exact ⟨raised.1, raised.2.resolve_right (by simp only; omega)⟩

/-- The end of a stream: its fields are cleared, whatever the hook does. -/
theorem completeStreamingResponse_view {stream : PendingStream}
    (pending : connection.pendingStream = some stream) :
    Ends (completeStreamingResponse world) connection
      (fun _ after => Fixes streamView { connection with
        pendingStream := none
        requestsCompleted := connection.requestsCompleted + 1 } after)
      (fun halt after => world.Raises halt ∧ Fixes streamView { connection with
        pendingStream := none
        requestsCompleted := connection.requestsCompleted + 1 } after) := by
  unfold completeStreamingResponse
  rw [get_bind, pending]
  simp only
  rw [modify_bind, ends_bind]
  have steps : ∀ step ∈ [hook world, changeBody stream.request BodyStream.close,
      when stream.admitted (release .request)], Quiet world step := by
    intro step member
    simp only [List.mem_cons, List.not_mem_nil, or_false] at member
    rcases member with rfl | rfl | rfl
    · exact hook_quiet
    · exact closeBody_quiet _
    · exact Quiet.when (.modify fun _ => rfl)
  refine (Quiet.settle steps _).mono (fun error settled same => ?_) fun _ _ => False.elim
  have rest : Quiet world (retire world >>= fun _ => raiseFirst error) := .bind retire_quiet fun _ =>
    .raiseFirst same.1
  exact (rest settled).mono (fun _ _ also => Eq.trans also same.2) fun _ _ raised =>
    ⟨raised.1, Eq.trans raised.2 same.2⟩

end Output

/-- A connection whose handler answered a request, neither cancelled nor a `HEAD`, with a stream. The
global budget holds what others and the connection itself use besides a full output queue. -/
structure Streamable (world : World) (extra id : Nat) (object : RequestObject) (response : Response)
    (connection : GatewayConnection) : Prop where
  room : Room extra connection
  budget : ∀ tick, extra + world.othersBuffered tick + connection.config.buffers.connectionBytes ≤
    connection.config.maxBufferedBytes
  segment : connection.config.buffers.segmentBytes ≤ 65536
  found : connection.requests[id]? = some object
  active : object.cancellation.cancelled = false
  bodied : response.withoutBody = false
  answered : object.request.method ≠ "HEAD".toList

end GatewayConnection

namespace StreamRun
open Thread Method GatewayConnection

variable {world : World} {extra id : Nat} {object : RequestObject} {response : Response}
  {start : GatewayConnection} {iterator : ResponseIterator} {head : Bytes} {run : StreamRun}

/-- The stream goes on: what was sent is the head and pieces, and they are, with what is left of the
current chunk, what the iterator has given. -/
structure Underway (extra id : Nat) (start : GatewayConnection) (iterator : ResponseIterator) (head : Bytes)
    (stream : PendingStream) (run : StreamRun) : Prop where
  room : Room extra run.connection
  state : run.connection.streamState = { start.streamState with pendingStream := some stream }
  request : stream.request = id
  pieces : ∃ pieces : List Bytes, (∀ piece ∈ pieces, piece.length ≤ 65536) ∧
    run.sent = start.output.contents ++ head ++ bodyWire true pieces ∧
    pieces.flatten ++ stream.chunk.drop stream.offset = (iterator.chunks run.asked).flatten
  going : ∀ n < run.asked, iterator.next n ≠ none
  empties : stream.emptyChunks ≤ run.asked ∧
    ∀ n < run.asked, run.asked ≤ n + stream.emptyChunks →
      (iterator.next n).map StreamChunk.encoded = some []

/-- The iterator has ended: the last chunk was sent, and the stream is over. -/
structure Finished (extra : Nat) (start : GatewayConnection) (iterator : ResponseIterator)
    (head : Bytes) (run : StreamRun) :
    Prop where
  room : Room extra run.connection
  state : run.connection.streamState = { start.streamState with
    pendingStream := none
    requestsCompleted := start.requestsCompleted + 1 }
  pieces : ∃ pieces : List Bytes, (∀ piece ∈ pieces, piece.length ≤ 65536) ∧
    run.sent = start.output.contents ++ head ++ bodyWire true pieces ++ ascii "0\r\n\r\n" ∧
    pieces.flatten = (iterator.chunks run.asked).flatten
  ended : ∃ count, run.asked = count + 1 ∧ iterator.next count = none ∧ ∀ n < count, iterator.next n ≠ none

theorem begin_underway (iterator : ResponseIterator)
    (streamable : Streamable world extra id object response start) {admitted : Bool}
    {begun : GatewayConnection}
    (begins : beginStreamingResponse world id response admitted start = (begun, .ok ())) :
    ∃ head, Http1ResponseEncoder.head response.status response.ownHeaders (-1) true start.persists =
      .ok head ∧
      Underway extra id start iterator head { request := id, response := response, admitted := admitted }
        { connection := begun } := by
  have spec : Ends (beginStreamingResponse world id response admitted) start (fun _ after => ∃ head,
      Http1ResponseEncoder.head response.status response.ownHeaders (-1) true start.persists =
        .ok head ∧ Room extra after ∧ after.streamState = { start.streamState with
          pendingStream := some { request := id, response := response, admitted := admitted } } ∧
        after.output.contents = start.output.contents ++ head) (fun _ _ => True) := by
    unfold beginStreamingResponse
    rw [ends_bind]
    refine (Ends.and (ask_view start) (ask_moves (E := fun _ => False) world World.iterate).ends).mono
      (fun _ asked both => ?_)
      fun _ _ _ => trivial
    obtain ⟨⟨_, same⟩, moves⟩ := both
    have flow : asked.flow = start.flow := moves.flow.resolve_left not_false
    obtain ⟨state, output, _⟩ := streamView_parts same
    have config : asked.config = start.config := congrArg StreamState.config state
    have persists : asked.persists = start.persists := by
      unfold persists
      rw [show asked.currentKeepAlive = start.currentKeepAlive from congrArg Flow.currentKeepAlive flow,
        show asked.closeAfterFlush = start.closeAfterFlush from congrArg Flow.closeAfterFlush flow]
    rw [get_bind]
    refine lift_bind (fun head encodes => ?_) fun _ => trivial
    rw [ends_bind]
    refine (queueBytes_room (streamable.room.of_view same) (config ▸ streamable.budget) head).mono
      (fun _ queued grown => ?_)
      fun _ _ _ => trivial
    obtain ⟨room, queuedState, contents⟩ := grown
    refine ⟨head, persists ▸ encodes, { room with }, ?_, ?_⟩
    · exact congrArg (fun state : StreamState => { state with
        pendingStream := some { request := id, response := response, admitted := admitted } })
          (queuedState.trans state)
    · exact contents.trans (congrArg (·.contents ++ head) output)
  obtain ⟨head, encodes, room, state, contents⟩ := spec.returned begins
  exact ⟨head, encodes, room, state, rfl, ⟨[], nofun, contents.trans (List.append_nil _).symm, rfl⟩,
    nofun, Nat.zero_le _, nofun⟩

theorem chunks_succ (iterator : ResponseIterator) (count : Nat) :
    iterator.chunks (count + 1) = iterator.chunks count ++
      ((iterator.next count).map StreamChunk.encoded).toList := by
  unfold ResponseIterator.chunks
  rw [List.range_succ, List.filterMap_append]
  congr 1

section Underway
variable {stream : PendingStream}

/-- Only the bytes that were sent count, not how many of them are still queued. -/
theorem Underway.move (underway : Underway extra id start iterator head stream run)
    {after : GatewayConnection} {taken : Bytes}
    (room : Room extra after) (state : after.streamState = run.connection.streamState)
    (sent : taken ++ after.output.contents = run.sent) :
    Underway extra id start iterator head stream { run with connection := after, taken := taken } := by
  obtain ⟨pieces, small, wire, given⟩ := underway.pieces
  exact { underway with room := room, state := state.trans underway.state, pieces := ⟨pieces, small,
    sent.trans wire, given⟩ }

theorem Underway.of_view {after : GatewayConnection}
    (underway : Underway extra id start iterator head stream run)
    (same : Fixes streamView run.connection after) :
    Underway extra id start iterator head stream { run with connection := after } := by
  obtain ⟨state, output, _⟩ := streamView_parts same
  exact underway.move (underway.room.of_view same) state (congrArg (run.taken ++ ·.contents) output)

theorem Underway.config (underway : Underway extra id start iterator head stream run) :
    run.connection.config = start.config := congrArg StreamState.config underway.state

theorem Underway.pending (underway : Underway extra id start iterator head stream run) :
    run.connection.pendingStream = some stream := congrArg StreamState.pendingStream underway.state

/-- The request is there, and nobody has cancelled it. -/
theorem Underway.active (underway : Underway extra id start iterator head stream run)
    (streamable : Streamable world extra id object response start) :
    ∃ current, run.connection.requests[stream.request]? = some current ∧
    current.cancellation.cancelled = false := by
  have same : run.connection.requests.map (·.cancellation) = start.requests.map (·.cancellation) :=
    congrArg StreamState.cancellations underway.state
  have there : (run.connection.requests.map (·.cancellation))[id]? = some object.cancellation := by
    rw [same, List.getElem?_map, streamable.found]
    rfl
  rw [List.getElem?_map, Option.map_eq_some_iff] at there
  obtain ⟨current, found, cancellation⟩ := there
  exact ⟨current, underway.request ▸ found, cancellation ▸ streamable.active⟩

theorem Underway.fetches (underway : Underway extra id start iterator head stream run)
    (streamable : Streamable world extra id object response start) :
    run.connection.fetches =
      (decide ((32 : Int) < run.connection.config.buffers.connectionBytes -
        run.connection.output.queuedBytes) &&
        decide (stream.chunk.length ≤ stream.offset)) := by
  obtain ⟨current, found, active⟩ := underway.active streamable
  unfold GatewayConnection.fetches
  rw [underway.pending]
  simp [found, active]

/-- One piece of the current chunk goes out. -/
theorem piece_underway (run : StreamRun)
    (streamable : Streamable world extra id object response start) (room : Room extra run.connection)
    (ready : Underway extra id start iterator head stream { run with
      connection := { run.connection with pendingStream := some stream } })
    (free : (32 : Int) < run.connection.config.buffers.connectionBytes - run.connection.output.queuedBytes)
    (left : stream.offset < stream.chunk.length) :
    Ends (driveStreamChunk world stream
        (run.connection.config.buffers.connectionBytes - run.connection.output.queuedBytes))
      run.connection
      (fun _ after => ∃ next, Underway extra id start iterator head next { run with connection := after })
      (fun halt after => Room extra after ∧ world.Raises halt) := by
  have config : run.connection.config = start.config := ready.config
  refine (driveStreamChunk_room room (config ▸ streamable.budget) (config ▸ streamable.segment)
    free left).mono
    (fun _ after driven => ?_) fun _ _ raised => raised
  obtain ⟨grown, piece, small, split, state, contents⟩ := driven
  obtain ⟨pieces, smaller, sent, given⟩ := ready.pieces
  refine ⟨{ stream with offset := stream.offset + piece.length }, { ready with
    room := grown
    state := ?_
    pieces := ⟨pieces ++ [piece], ?_, ?_, ?_⟩ }⟩
  · exact state.trans (congrArg (fun state : StreamState => { state with
      pendingStream := some { stream with offset := stream.offset + piece.length } }) ready.state)
  · intro other member
    rcases List.mem_append.mp member with old | new
    · exact smaller other old
    · exact List.mem_singleton.mp new ▸ small
  · calc run.taken ++ after.output.contents
        = run.taken ++ run.connection.output.contents ++ Http1ResponseEncoder.chunk piece := by
          rw [contents, List.append_assoc]
      _ = start.output.contents ++ head ++ bodyWire true pieces ++ Http1ResponseEncoder.chunk piece := by
        rw [show run.taken ++ run.connection.output.contents = _ from sent]
      _ = start.output.contents ++ head ++ bodyWire true (pieces ++ [piece]) := by
        simp [bodyWire]
  · rw [List.flatten_append, List.flatten_singleton, List.append_assoc, ← split]
    exact given

/-- An iterator that has given up to 1024 empty chunks in a row ends them. -/
theorem Underway.patient (underway : Underway extra id start iterator head stream run)
    (empty : (iterator.next run.asked).map StreamChunk.encoded = some []) :
    stream.emptyChunks + 1 ≤ 1024 := by
  by_contra many
  obtain ⟨counted, empties⟩ := underway.empties
  obtain ⟨k, small, other⟩ := iterator.sparse (run.asked - 1024)
  refine other ?_
  by_cases last : run.asked - 1024 + k = run.asked
  · rwa [last]
  · exact empties _ (by omega) (by omega)

/-- The next answer of the iterator is a chunk, and the previous one has been sent. -/
theorem fetched_underway (streamable : Streamable world extra id object response start)
    (underway : Underway extra id start iterator head stream run)
    (sent : stream.chunk.length ≤ stream.offset)
    (free : (32 : Int) < run.connection.config.buffers.connectionBytes -
      run.connection.output.queuedBytes) {data : Bytes}
    (given : (iterator.next run.asked).map StreamChunk.encoded = some data) :
    Ends (driveStreamingResponse.driveFetched world data stream
        (run.connection.config.buffers.connectionBytes - run.connection.output.queuedBytes)) run.connection
      (fun _ after => ∃ next, Underway extra id start iterator head next { run with
        connection := after, asked := run.asked + 1 })
      (fun halt after => Room extra after ∧ world.Raises halt) := by
  obtain ⟨pieces, small, wire, whole⟩ := underway.pieces
  have chunks : iterator.chunks (run.asked + 1) = iterator.chunks run.asked ++ [data] := by
    rw [chunks_succ, given]
    rfl
  rw [List.drop_of_length_le sent, List.append_nil] at whole
  have going : ∀ n < run.asked + 1, iterator.next n ≠ none := by
    intro n less none
    rcases Nat.lt_succ_iff_lt_or_eq.mp less with old | rfl
    · exact underway.going n old none
    · simp [none] at given
  unfold driveStreamingResponse.driveFetched
  refine .ite (fun empty => ?_) fun nonempty => ?_
  · subst empty
    rw [modify_bind]
    refine .ite (fun many => absurd (underway.patient given) (by omega)) fun _ => ?_
    refine ⟨{ stream with emptyChunks := stream.emptyChunks + 1 }, { underway.room with }, ?_,
      underway.request, ⟨pieces, small, wire, ?_⟩, going, ?_, ?_⟩
    · exact congrArg (fun state : StreamState => { state with
        pendingStream := some { stream with emptyChunks := stream.emptyChunks + 1 } }) underway.state
    · simpa [chunks, List.drop_of_length_le sent] using whole
    · exact Nat.succ_le_succ underway.empties.1
    · intro n less near
      rcases Nat.lt_succ_iff_lt_or_eq.mp less with old | rfl
      · exact underway.empties.2 n old (by simp only at near; omega)
      · exact given
  · refine piece_underway { run with asked := run.asked + 1 } streamable underway.room ?_ free
      (List.length_pos_iff.mpr nonempty)
    refine ⟨{ underway.room with }, ?_, underway.request, ⟨pieces, small, wire, ?_⟩, going,
      Nat.zero_le _, ?_⟩
    · exact congrArg (fun state : StreamState => { state with
        pendingStream := some { stream with chunk := data, offset := 0, emptyChunks := 0 } }) underway.state
    · simp [chunks, whole]
    · intro n less near
      simp only at near less
      omega

/-- The iterator ends: the terminator fits, and the stream is over. -/
theorem ended_finished (streamable : Streamable world extra id object response start)
    (underway : Underway extra id start iterator head stream run)
    (sent : stream.chunk.length ≤ stream.offset)
    (free : (32 : Int) < run.connection.config.buffers.connectionBytes - run.connection.output.queuedBytes)
    (ends : iterator.next run.asked = none) :
    Ends (do
        let ending ← lift (Http1ResponseEncoder.endChunks [])
        queueBytes world ending
        completeStreamingResponse world : Call Unit) run.connection
      (fun _ after => Finished extra start iterator head { run with connection := after, asked :=
        run.asked + 1 })
      (fun halt after => Room extra after ∧ world.Raises halt) := by
  obtain ⟨pieces, small, wire, whole⟩ := underway.pieces
  have chunks : iterator.chunks (run.asked + 1) = iterator.chunks run.asked := by
    rw [chunks_succ, ends]
    exact List.append_nil _
  rw [List.drop_of_length_le sent, List.append_nil] at whole
  refine (ends_bind_run (show GatewayConnection.lift (Http1ResponseEncoder.endChunks [])
    run.connection = (run.connection, .ok (ascii "0\r\n\r\n")) from rfl)).mpr ?_
  rw [ends_bind]
  have config := underway.config
  refine (queueBytes_room underway.room (config ▸ streamable.budget) _).mono
      (fun _ queued grown => ?_) fun _ _ raised =>
    ⟨raised.1, raised.2.resolve_right ?_⟩
  · obtain ⟨room, state, contents⟩ := grown
    have pending : queued.pendingStream = some stream :=
      (congrArg StreamState.pendingStream state).trans underway.pending
    have isOver : Room extra { queued with pendingStream := none, requestsCompleted :=
        queued.requestsCompleted + 1 } := { room with }
    refine (completeStreamingResponse_view pending).mono (fun _ after same => ?_) fun _ _ raised =>
      ⟨isOver.of_view raised.2, raised.1⟩
    obtain ⟨cleared, output, _⟩ := streamView_parts same
    refine ⟨isOver.of_view same, cleared.trans ?_, ⟨pieces, small, ?_, ?_⟩, run.asked, rfl, ends,
      underway.going⟩
    · exact congrArg (fun state : StreamState => { state with
        pendingStream := none
        requestsCompleted := state.requestsCompleted + 1 }) (state.trans underway.state)
    · calc run.taken ++ after.output.contents
          = run.taken ++ run.connection.output.contents ++ ascii "0\r\n\r\n" := by
            rw [output, List.append_assoc]
            exact congrArg (run.taken ++ ·) contents
        _ = start.output.contents ++ head ++ bodyWire true pieces ++ ascii "0\r\n\r\n" := by
          rw [show run.taken ++ run.connection.output.contents = _ from wire]
    · exact whole.trans (congrArg List.flatten chunks.symm)
  · rw [show (ascii "0\r\n\r\n").length = 5 from rfl]
    omega

/-- A call of the driver on a stream that goes on. -/
theorem drive_underway (streamable : Streamable world extra id object response start)
    (underway : Underway extra id start iterator head stream run) :
    Ends (perform world iterator .drive) run
      (fun _ after => (∃ next, Underway extra id start iterator head next after) ∨
        Finished extra start iterator head after)
      (fun halt after => Room extra after.connection ∧ world.Raises halt) := by
  have yielding : Streamable (world.yielding (iterator.next run.asked)) extra id object response
      start := { streamable with }
  have fetches := underway.fetches streamable
  obtain ⟨current, found, active⟩ := underway.active streamable
  change Ends (onConnection (driveStreamingResponse (world.yielding (iterator.next run.asked))))
    { run with asked := run.asked + run.connection.fetches.toNat } _ _
  rw [onConnection, ends_on]
  unfold driveStreamingResponse
  rw [get_bind]
  simp only [underway.pending]
  refine (ends_bind_run (requestObject_found found)).mpr (.ite (fun cancelled =>
    absurd cancelled (by simp [active])) fun _ => ?_)
  refine .ite (fun full => ?_) fun free => ?_
  · have waits : run.connection.fetches.toNat = 0 := by
      rw [fetches, decide_eq_false (by omega)]
      rfl
    exact .inl ⟨stream, by rw [waits]; exact underway⟩
  have free : (32 : Int) < run.connection.config.buffers.connectionBytes -
      run.connection.output.queuedBytes := by omega
  refine .ite (fun left => ?_) fun sent => ?_
  · have waits : run.connection.fetches.toNat = 0 := by
      rw [fetches, decide_eq_false (show ¬ stream.chunk.length ≤ stream.offset by omega), Bool.and_false]
      rfl
    have still : Fixes streamView run.connection { run.connection with pendingStream := some stream } := by
      simp [Fixes, streamView, streamState, underway.pending]
    rw [waits]
    exact (piece_underway run yielding underway.room (underway.of_view still) free left).mono
      (fun _ _ => .inl) fun _ _ raised => raised
  · have asks : run.connection.fetches.toNat = 1 := by
      rw [fetches, decide_eq_true free, decide_eq_true (by omega)]
      rfl
    rw [asks, ends_bind]
    refine (ask_view run.connection).mono (fun answer asked given => ?_) fun _ asked raised => ?_
    · obtain ⟨told, same⟩ := given
      obtain ⟨_, output, _⟩ := streamView_parts same
      have later := underway.of_view same
      have config : asked.config = run.connection.config := later.config.trans underway.config.symm
      rw [← output, ← config] at free ⊢
      have sent : stream.chunk.length ≤ stream.offset := by omega
      obtain rfl : iterator.next run.asked = answer := Except.ok.inj told
      cases given : iterator.next run.asked with
      | none =>
        exact (ended_finished yielding later sent free given).mono (fun _ _ => .inr) fun _ _
          raised => raised
      | some chunk =>
        have fetched (data : Bytes) (encoded : chunk.encoded = data) :=
          fetched_underway yielding later sent free (congrArg (Option.map StreamChunk.encoded) given
            |>.trans (congrArg some encoded))
        cases chunk with
        | other => exact absurd given (iterator.typed _)
        | bytes data => exact (fetched data rfl).mono (fun _ _ => .inl) fun _ _ raised => raised
        | text value => exact (fetched (utf8 value) rfl).mono (fun _ _ => .inl) fun _ _ raised => raised
    · obtain ⟨⟨error, _, impossible⟩, _⟩ := raised
      cases impossible

end Underway

theorem Finished.fetches (finished : Finished extra start iterator head run) :
    run.connection.fetches = false := by
  unfold GatewayConnection.fetches
  rw [show run.connection.pendingStream = none from congrArg StreamState.pendingStream finished.state]

/-- The stream goes on or is over. -/
def Streams (extra id : Nat) (start : GatewayConnection) (iterator : ResponseIterator) (head : Bytes)
    (run : StreamRun) : Prop :=
  (∃ stream, Underway extra id start iterator head stream run) ∨ Finished extra start iterator head run

theorem Finished.move (finished : Finished extra start iterator head run) {after : GatewayConnection}
    {taken : Bytes} (room : Room extra after) (state : after.streamState = run.connection.streamState)
    (sent : taken ++ after.output.contents = run.sent) :
    Finished extra start iterator head { run with connection := after, taken := taken } := by
  obtain ⟨pieces, small, wire, given⟩ := finished.pieces
  exact { finished with room := room, state := state.trans finished.state, pieces := ⟨pieces, small,
    sent.trans wire, given⟩ }

theorem Streams.config (streams : Streams extra id start iterator head run) :
    run.connection.config = start.config := by
  rcases streams with ⟨_, underway⟩ | finished
  · exact underway.config
  · exact congrArg StreamState.config finished.state

theorem Streams.room (streams : Streams extra id start iterator head run) : Room extra run.connection := by
  rcases streams with ⟨_, underway⟩ | finished
  · exact underway.room
  · exact finished.room

theorem perform_streams (streamable : Streamable world extra id object response start)
    (call : StreamCall) (run : StreamRun) (streams : Streams extra id start iterator head run) :
    Ends (perform world iterator call) run (fun _ => Streams extra id start iterator head)
      (fun halt after => Room extra after.connection ∧ world.Raises halt) := by
  cases call with
  | drive =>
    rcases streams with ⟨stream, underway⟩ | finished
    · exact drive_underway streamable underway
    · have isOver : run.connection.pendingStream = none := congrArg StreamState.pendingStream finished.state
      change Ends (onConnection (driveStreamingResponse (world.yielding (iterator.next run.asked))))
        { run with asked := run.asked + run.connection.fetches.toNat } _ _
      rw [finished.fetches, onConnection, ends_on]
      unfold driveStreamingResponse
      rw [get_bind]
      simp only [isOver]
      exact .inr finished
  | flush limit =>
    unfold perform
    rw [ends_bind, onConnection, ends_on]
    refine (takeOutput_room streams.room limit).mono (fun data after taken => ?_) fun _ _ raised => raised
    obtain ⟨room, state, split⟩ := taken
    have sent : run.taken ++ data ++ after.output.contents = run.sent := by
      rw [List.append_assoc, split]
      rfl
    rcases streams with ⟨stream, underway⟩ | finished
    · exact .inl ⟨stream, underway.move room state sent⟩
    · exact .inr (finished.move room state sent)

theorem perform_config (call : StreamCall) :
    Evolves (Fixes fun run => run.connection.config) (perform world iterator call) := by
  cases call with
  | drive =>
    exact fun run => (driveStreamingResponse_moves (world.yielding (iterator.next run.asked)) le_rfl
      run.connection).config
  | flush limit =>
    have taken : Evolves (Moves writing) (takeOutput world limit) :=
      .bind .get fun _ => .bind (consumeOutput_moves world le_rfl _) fun _ => .pure _
    exact Evolves.bind (fun run => (taken run.connection).config) fun _ => .modify fun _ => rfl

/-- A call that does not get to `next` is the same for every answer. -/
theorem drive_unasked {connection : GatewayConnection} (idle : connection.fetches = false)
    (first second : Option StreamChunk) :
    driveStreamingResponse (world.yielding first) connection =
      driveStreamingResponse (world.yielding second) connection := by
  unfold GatewayConnection.fetches at idle
  unfold driveStreamingResponse
  rw [bind_run, bind_run, show connection.get = (connection, .ok connection) from rfl]
  dsimp only
  cases pending : connection.pendingStream with
  | none => rfl
  | some stream =>
    simp only [pending] at idle ⊢
    rw [bind_run, bind_run]
    cases found : connection.requests[stream.request]? with
    | none => rw [requestObject_missing found]
    | some object =>
      rw [requestObject_found found]
      simp only [found] at idle ⊢
      by_cases cancelled : object.cancellation.cancelled = true
      · rw [if_pos cancelled, if_pos cancelled]
      by_cases full : (connection.config.buffers.connectionBytes - connection.output.queuedBytes : Int) ≤ 32
      · rw [if_neg cancelled, if_neg cancelled, if_pos full, if_pos full]
      by_cases left : stream.offset < stream.chunk.length
      · rw [if_neg cancelled, if_neg cancelled, if_neg full, if_neg full, if_pos left, if_pos left]
        rfl
      · simp [cancelled, show (32 : Int) < connection.config.buffers.connectionBytes -
          connection.output.queuedBytes by omega,
          show stream.chunk.length ≤ stream.offset by omega] at idle

end StreamRun

open Http1UpstreamCodec in
/-- A codec for this method with large enough limits decodes `wire` completely: a head in front of a
chunked body, with the handler's fields in their order, and the bytes of `body`. -/
def StreamedAs (method : Text) (response : Response) (keepAlive : Bool) (body wire : Bytes) : Prop :=
  ∃ enough : Nat, ∀ receiver : UpstreamLimits, receiver.Admits enough →
    ∃ (done : Http1UpstreamCodec) (received : UpstreamResponseHead) (pieces : List Bytes),
      feed { requestMethod := method, limits := receiver } wire =
        (done, .ok (.responseHead received :: (pieces.map .responseBody ++ [.responseEnd []]))) ∧
      done.complete = true ∧ done.buffer = [] ∧ received.informational = false ∧ received.chunked = true ∧
      received.status = response.status ∧ received.headers =
        Http1ResponseEncoder.readHead response.ownHeaders (-1) true keepAlive ∧ pieces.flatten = body

namespace GatewayConnection
open Http1UpstreamCodec ProxyExchange

/-- A head and pieces of at most a segment each are one chunked response. -/
theorem streamed_decodes {method : Text} {response : Response} {keepAlive : Bool} {head : Bytes}
    {pieces : List Bytes}
    (encodes : Http1ResponseEncoder.head response.status response.ownHeaders (-1) true keepAlive = .ok head)
    (bodied : response.withoutBody = false) (answered : method ≠ "HEAD".toList)
    (small : ∀ piece ∈ pieces, piece.length ≤ 65536) :
    StreamedAs method response keepAlive pieces.flatten
      (head ++ bodyWire true pieces ++ ascii "0\r\n\r\n") := by
  refine ⟨(head ++ bodyWire true pieces ++ ascii "0\r\n\r\n").length, fun receiver admits => ?_⟩
  obtain ⟨low, high⟩ := response.final
  have room := admits.bodyBytes
  obtain ⟨block, rfl, delimited, bytes, parsed⟩ :=
    @Http1ResponseEncoder.head_read method _ _ _ _ _ _ _ encodes ⟨by omega, by omega⟩
    (by omega) (by decide) (by decide) (by omega : _ ≤ receiver.maxBodyBytes)
    (admits.mono (by simp only [List.length_append]; omega))
  generalize read : responseHead method .http11 response.status _ _ (-1) true = received at parsed
  have final : ¬ (100 ≤ response.status ∧ response.status < 200) := by omega
  have bare : ¬ (response.status = 204 ∨ response.status = 304) := by
    simpa [Response.withoutBody, Response.contentLengthForbidden, final, not_or] using bodied
  have informational : received.informational = false := by
    rw [← read]
    simpa [responseHead] using final
  have expected : received.bodyExpected = true := by
    rw [← read]
    simp only [responseHead, final, false_or, decide_eq_true_eq, not_or]
    exact ⟨answered, not_or.mp bare⟩
  have coded : received.chunked = true := by rw [← read]; rfl
  have length : received.contentLength = -1 := by rw [← read]; rfl
  have sized : ∀ piece ∈ pieces, piece.length < 2 ^ 63 := fun piece member => by
    have := small piece member
    omega
  have trailers : DeliveredTrailers receiver.toBodyLimits [] := ⟨[], [], rfl, by decide, rfl⟩
  have ends : Http1ResponseEncoder.endChunks [] = .ok (ascii "0\r\n\r\n") := rfl
  obtain ⟨done, data, steps, state, complete, buffer, same⟩ :=
    streamed_steps ⟨delimited, bytes, parsed, informational⟩ expected
    coded length sized trailers ends (admits.mono (by simp only [List.length_append]; omega))
  refine ⟨done, received, data, ?_, complete, buffer, informational, coded, ?_, ?_, same⟩
  · rw [List.append_assoc (block ++ doubleCrlf)]
    exact (feed_eq_ok_iff rfl rfl).mpr ⟨steps, by simp [turn, state]⟩
  · rw [← read]
    rfl
  · rw [← read]
    rfl

end GatewayConnection

namespace StreamRun
open Method GatewayConnection

/-- A stream, call by call, with flushes of any size in between. No exception but one of the hooks
or of the clock stops it, and the output keeps its limit. The iterator is asked only when all that
it gave before has been queued. When it has ended, what was sent is one chunked response with the
bytes of its chunks, and the stream, pending up to then, has been completed once. What is assumed is
that the response was begun for a request that is not cancelled and may have a body, and that the
global budget has room for a full output queue beside what the others use. Nothing is assumed about
the iterator, which may be endless or give empty chunks, nor about when the client takes what was
queued. -/
theorem streaming_response (world : World) (extra id : Nat) (object : RequestObject) (response : Response)
    (start begun : GatewayConnection) (admitted : Bool)
    (streamable : Streamable world extra id object response start)
    (begins : beginStreamingResponse world id response admitted start = (begun, .ok ()))
    (iterator : ResponseIterator)
    (calls : List StreamCall) (after : StreamRun) (outcome : Except (Halt Exn) Unit)
    (runs : Method.each (perform world iterator) calls { connection := begun } = (after, outcome)) :
    (∀ halt, outcome = .error halt → world.Raises halt) ∧
    after.connection.output.queuedBytes ≤ start.config.buffers.connectionBytes ∧
    (outcome = .ok () →
      (∀ answer, driveStreamingResponse (world.yielding answer) after.connection ≠
          driveStreamingResponse (world.yielding (iterator.next after.asked)) after.connection →
        ∃ (head : Bytes) (pieces : List Bytes),
          after.sent = start.output.contents ++ head ++ bodyWire true pieces ∧
          Http1ResponseEncoder.head response.status response.ownHeaders (-1) true start.persists =
            .ok head ∧ pieces.flatten = (iterator.chunks after.asked).flatten) ∧
      ((∀ n < after.asked, iterator.next n ≠ none) →
        after.connection.pendingStream.isSome = true ∧ after.connection.requestsCompleted =
          start.requestsCompleted) ∧
      ((∃ n < after.asked, iterator.next n = none) →
        after.connection.pendingStream = none ∧ after.connection.requestsCompleted =
          start.requestsCompleted + 1 ∧ ∃ wire, after.sent = start.output.contents ++ wire ∧
          StreamedAs object.request.method response start.persists
            (iterator.chunks after.asked).flatten wire)) := by
  obtain ⟨head, encodes, underway⟩ := begin_underway iterator streamable begins
  have steps : Ends (Method.each (perform world iterator) calls) { connection := begun }
      (fun _ => Streams extra id start iterator head)
      (fun halt after => Room extra after.connection ∧ after.connection.config = start.config ∧
        world.Raises halt) :=
    ends_each (fun call run streams =>
      ((perform_streams streamable call run streams).and (perform_config call).ends).mono
      (fun _ _ both => both.1) fun _ _ both =>
        ⟨both.1.1, both.2.trans streams.config, both.1.2⟩) calls (.inl ⟨_, underway⟩)
  rcases outcome with halt | ⟨⟩
  · obtain ⟨room, config, raises⟩ := steps.raised runs
    exact ⟨fun _ same => Except.error.inj same ▸ raises, config ▸ room.within, nofun⟩
  have streams := steps.returned runs
  refine ⟨nofun, streams.config ▸ streams.room.within, fun _ => ?_⟩
  have fetches (answer : Option StreamChunk)
    (differs : driveStreamingResponse (world.yielding answer) after.connection ≠
      driveStreamingResponse (world.yielding (iterator.next after.asked)) after.connection) :
        after.connection.fetches = true := by
    by_contra idle
    exact differs (drive_unasked (Bool.eq_false_iff.mpr idle) _ _)
  rcases streams with ⟨stream, underway⟩ | finished
  · refine ⟨fun answer differs => ?_, fun _ => ?_, fun isOver => ?_⟩
    · have asks := fetches answer differs
      rw [underway.fetches streamable, Bool.and_eq_true, decide_eq_true_eq, decide_eq_true_eq] at asks
      obtain ⟨pieces, _, sent, given⟩ := underway.pieces
      rw [List.drop_of_length_le asks.2, List.append_nil] at given
      exact ⟨head, pieces, sent, encodes, given⟩
    · exact ⟨Option.isSome_iff_exists.mpr ⟨stream, underway.pending⟩,
        congrArg StreamState.requestsCompleted underway.state⟩
    · obtain ⟨n, less, ended⟩ := isOver
      exact absurd ended (underway.going n less)
  · obtain ⟨count, asked, ended, _⟩ := finished.ended
    refine ⟨fun answer differs => ?_, fun going => absurd ended (going count (by omega)), fun _ =>
      ⟨?_, ?_, ?_⟩⟩
    · exact absurd (fetches answer differs) (by simp [finished.fetches])
    · exact congrArg StreamState.pendingStream finished.state
    · exact congrArg StreamState.requestsCompleted finished.state
    · obtain ⟨pieces, small, sent, given⟩ := finished.pieces
      refine ⟨head ++ bodyWire true pieces ++ ascii "0\r\n\r\n",
        by rw [sent]; simp only [List.append_assoc], ?_⟩
      exact given ▸ streamed_decodes encodes streamable.bodied streamable.answered small

/-- A text, an empty chunk and six bytes. -/
def threeChunks : ResponseIterator where
  next
    | 0 => some (.text "hé".toList)
    | 1 => some (.bytes [])
    | 2 => some (.bytes [1, 2, 3, 4, 5, 6])
    | _ => none
  typed := fun n => by split <;> simp
  sparse := fun n => ⟨3, by decide, by simp⟩

def rootRequest : RequestObject where
  request := {
    method := "GET".toList
    target := "/".toList
    rawPath := "/".toList
    path := "/".toList
    queryString := []
    version := .http11
    headers := []
    clientIp := []
    scheme := "http".toList
    contentLength := -1
    chunkedBody := false
    expectContinueHandled := false
    trailers := []
    target_split := by decide
    path_normal := by decide }
  body := { maxBytes := 0, lowWatermark := 0, highWatermark := 1, streaming := false }
  cancellation := { deadlineMs := 30000 }

/-- Segments of four bytes, and room for the head and one piece. -/
def narrow : GatewayConnection :=
  { init { buffers := { segmentBytes := 4, lowWatermark := 8, highWatermark := 16, connectionBytes :=
      90 } } with
    requests := [rootRequest] }

def plainStream : Response where
  status := 200
  body := .bytes []
  headers := []
  streaming := true
  final := by decide

def narrowCalls : List StreamCall :=
  [.drive, .drive, .flush 40, .drive, .flush (-1), .drive, .drive, .drive, .flush 7, .drive, .drive]

def narrowWire : Bytes :=
  ascii "HTTP/1.1 200 OK\r\nTransfer-Encoding: chunked\r\n\r\n3\r\n" ++ [104, 195, 169] ++
    ascii "\r\n4\r\n" ++ [1, 2, 3, 4] ++ ascii "\r\n2\r\n" ++ [5, 6] ++ ascii "\r\n0\r\n\r\n"

theorem streaming_response_narrow : ∃ begun after,
    beginStreamingResponse {} 0 plainStream true narrow = (begun, .ok ()) ∧
    Method.each (perform {} threeChunks) narrowCalls { connection := begun } = (after, .ok ()) ∧
    after.asked = 4 ∧
    after.connection.pendingStream = none ∧ after.connection.requestsCompleted = 1 ∧ after.sent =
      narrowWire ∧
    StreamedAs "GET".toList plainStream true [104, 195, 169, 1, 2, 3, 4, 5, 6] narrowWire := by
  have begun : (beginStreamingResponse {} 0 plainStream true narrow).2.isOk = true := by decide
  have run : (Method.each (perform {} threeChunks) narrowCalls
        { connection := (beginStreamingResponse {} 0 plainStream true narrow).1 }).2.isOk = true ∧
      (Method.each (perform {} threeChunks) narrowCalls
        { connection := (beginStreamingResponse {} 0 plainStream true narrow).1 }).1.asked = 4 ∧
      (Method.each (perform {} threeChunks) narrowCalls
        { connection := (beginStreamingResponse {} 0 plainStream true narrow).1 }).1.sent =
          narrowWire := by decide +kernel
  have streamable : Streamable {} 0 0 rootRequest plainStream narrow :=
    ⟨⟨⟨rfl, .inl rfl, le_rfl⟩, rfl, rfl, by decide, rfl⟩, fun _ =>
      (by decide : 0 + 0 + 90 ≤ 67108864), by decide, rfl, rfl, rfl, by decide⟩
  have persists : narrow.persists = true := rfl
  have empty : narrow.output.contents = [] := rfl
  have none : narrow.requestsCompleted = 0 := rfl
  have method : rootRequest.request.method = "GET".toList := rfl
  have chunks : (threeChunks.chunks 4).flatten = [104, 195, 169, 1, 2, 3, 4, 5, 6] := by decide
  generalize narrow = start at *
  generalize first : beginStreamingResponse {} 0 plainStream true start = started at *
  obtain ⟨connection, _ | ⟨⟩⟩ := started
  · cases begun
  generalize second : Method.each (perform {} threeChunks) narrowCalls { connection := connection } =
    finished at *
  obtain ⟨after, _ | ⟨⟩⟩ := finished
  · cases run.1
  obtain ⟨-, asked, written⟩ := run
  simp only at asked written
  obtain ⟨-, -, rest⟩ := streaming_response {} 0 0 rootRequest plainStream start connection true
    streamable first threeChunks
    narrowCalls after (.ok ()) second
  obtain ⟨-, -, isOver⟩ := rest rfl
  obtain ⟨cleared, completed, wire, sent, streamed⟩ := isOver ⟨3, by omega, rfl⟩
  rw [empty, List.nil_append] at sent
  rw [asked, chunks, persists, method, ← sent, written] at streamed
  exact ⟨connection, after, rfl, second, asked, cleared, completed.trans (by rw [none]), written, streamed⟩

end StreamRun

end PccGateway
