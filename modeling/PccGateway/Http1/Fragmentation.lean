import PccGateway.Http1.ServerFeed
import PccGateway.Lib.Merging

namespace PccGateway
open Incremental Search

/-- Put an event in front of a merged list, joining it to a body chunk already there. -/
def consMerged : Event → List Event → List Event
  | .bodyChunk first, .bodyChunk second :: rest => .bodyChunk (first ++ second) :: rest
  | event, rest => event :: rest

/-- Adjacent body chunks become one. No two messages are joined: a `requestEnd` stands between
them. -/
def mergeChunks (events : List Event) : List Event := events.foldr consMerged []

def Event.chunk : Event → Option Bytes
  | .bodyChunk data => some data
  | _ => none

theorem event_pieces : Merging.Pieces Event.chunk Event.bodyChunk where
  data_piece := fun _ => rfl
  piece_of_data := by
    intro event content carries
    cases event <;> simp_all [Event.chunk]

theorem consMerged_eq_join : consMerged = Merging.join Event.chunk .bodyChunk := by
  funext event rest
  cases rest with
  | nil => cases event <;> rfl
  | cons next rest => cases event <;> cases next <;> rfl

/-- Two event lists that differ only in how bodies are cut. -/
def SameMerged (first second : List Event) : Prop := mergeChunks first = mergeChunks second

theorem sameMerged_coalescing : Decoder.Coalescing SameMerged := by
  have coalescing := Merging.merge_coalescing event_pieces
  unfold Merging.merge at coalescing
  rwa [← consMerged_eq_join] at coalescing

namespace Http1ServerCodec

theorem parseHead_push {codec next : Http1ServerCodec} {block : Bytes} {head : RequestHead} {hasBody : Bool}
    (parsed : codec.parseHead block = .ok (next, head, hasBody)) (data : Bytes) :
    (codec.push data).parseHead block = .ok (next.push data, head, hasBody) := by
  obtain ⟨run, entered⟩ := parseHead_eq_ok_iff.mp parsed
  refine parseHead_eq_ok_iff.mpr ⟨run, ?_⟩
  rw [enterBody_push, entered]

/-- A partial fixed body read in two turns is read in one when its bytes arrive together. -/
theorem fixedPart_push {codec : Http1ServerCodec} {data : Bytes} {last : Http1ServerCodec}
    {events : List Event} {complete : Bool} (state : codec.state = .fixedBody)
    (nonempty : codec.buffer ≠ []) (short : codec.buffer.length < codec.remaining)
    (step : Step { codec with
        buffer := data
        remaining := codec.remaining - codec.buffer.length
        bodyReceived := codec.bodyReceived + codec.buffer.length } last events complete) :
    ∃ all, Step (codec.push data) last all complete ∧
      SameMerged all (.bodyChunk codec.buffer :: events) := by
  have pushed : (codec.push data).buffer ≠ [] := by simp [push, nonempty]
  cases step with
  | headWithBody state' => simp [state] at state'
  | headOnly state' => simp [state] at state'
  | chunkSize state' => simp [state] at state'
  | lastChunk state' => simp [state] at state'
  | chunkData state' => simp [state] at state'
  | noTrailers state' => simp [state] at state'
  | trailers state' => simp [state] at state'
  | fixedPart _ _ less =>
    have longer : (codec.push data).buffer.length < (codec.push data).remaining := by
      simp only [push, List.length_append] at less ⊢
      omega
    refine ⟨[.bodyChunk (codec.push data).buffer], ?_, rfl⟩
    have step := @Step.fixedPart (codec.push data) state pushed longer
    simpa only [push, List.length_append, Nat.add_assoc, Nat.sub_sub] using step
  | @fixedLast piece rest _ _ buffer length =>
    simp only at buffer length
    subst buffer
    have piecePositive : piece ≠ [] := fun empty => by simp [empty] at length; omega
    have step := @Step.fixedLast (codec.push (piece ++ rest)) (codec.buffer ++ piece) rest state
      pushed (by simp [push]) (by simp [push]; omega)
    refine ⟨_, step, ?_⟩
    simp [nonempty, piecePositive, SameMerged, mergeChunks, consMerged]

/-- A fixed body that ran out of input in the middle. -/
def swallow (codec : Http1ServerCodec) : Http1ServerCodec :=
  { codec with
    buffer := []
    remaining := codec.remaining - codec.buffer.length
    bodyReceived := codec.bodyReceived + codec.buffer.length }

/-- A turn does the same with more input behind it, unless it swallowed part of a fixed body. -/
theorem Step.push {codec next : Http1ServerCodec} {events : List Event} {complete : Bool}
    (step : Step codec next events complete) (data : Bytes) :
    Step (codec.push data) (next.push data) events complete ∨
      (codec.state = .fixedBody ∧ codec.buffer ≠ [] ∧ codec.buffer.length < codec.remaining) ∧
        next = codec.swallow ∧ events = [.bodyChunk codec.buffer] := by
  cases step with
  | @headWithBody _ block rest head state buffer delimited bound parsed =>
    exact .inl (@Step.headWithBody _ _ _ (rest ++ data) _ state
      (by simp [Http1ServerCodec.push, buffer]) delimited bound
      (parseHead_push parsed data))
  | @headOnly _ block rest head state buffer delimited bound parsed =>
    exact .inl (@Step.headOnly _ _ _ (rest ++ data) _ state (by simp [Http1ServerCodec.push, buffer])
      delimited bound
      (parseHead_push parsed data))
  | fixedPart state filled short => exact .inr ⟨⟨state, filled, short⟩, rfl, rfl⟩
  | @fixedLast piece rest state filled buffer length =>
    exact .inl (@Step.fixedLast (codec.push data) _ (rest ++ data) state
      (by simp [Http1ServerCodec.push, filled])
      (by simp [Http1ServerCodec.push, buffer]) length)
  | @chunkSize line rest size state buffer delimited short parsed positive chunkBound bodyBound =>
    exact .inl (@Step.chunkSize (codec.push data) _ (rest ++ data) _ state
      (by simp [Http1ServerCodec.push, buffer])
      delimited short parsed positive chunkBound bodyBound)
  | @lastChunk line rest state buffer delimited short parsed chunkBound bodyBound =>
    exact .inl (@Step.lastChunk (codec.push data) _ (rest ++ data) state
      (by simp [Http1ServerCodec.push, buffer])
      delimited short parsed chunkBound bodyBound)
  | @chunkData piece rest state buffer length =>
    exact .inl (@Step.chunkData (codec.push data) _ (rest ++ data) state
      (by simp [Http1ServerCodec.push, buffer]) length)
  | @noTrailers rest state buffer =>
    exact .inl (@Step.noTrailers (codec.push data) (rest ++ data) state
      (by simp [Http1ServerCodec.push, buffer]))
  | @trailers block rest trailers state buffer delimited noBlank bound parsed allowed =>
    exact .inl (@Step.trailers (codec.push data) _ (rest ++ data) _ state
      (by simp [Http1ServerCodec.push, buffer]) delimited
      noBlank bound parsed allowed)

theorem swallow_waits {codec : Http1ServerCodec} (state : codec.state = .fixedBody) :
    codec.swallow.turn = .wait := by
  simp [turn, fixedBodyTurn, swallow, state]

/-- More input after a part of a fixed body is always taken. -/
theorem swallow_push_emits {codec : Http1ServerCodec} (state : codec.state = .fixedBody) {data : Bytes}
    (nonempty : data ≠ []) :
    ∃ next events complete, (codec.swallow.push data).turn = .emit next events complete := by
  simp only [turn, push, swallow, state, fixedBodyTurn, List.nil_append, nonempty, if_false]
  split
  · exact ⟨_, _, _, rfl⟩
  · exact ⟨_, _, _, rfl⟩

theorem decoder_stable : decoder.Stable SameMerged := by
  intro codec next events complete run data nonempty
  rcases (turn_eq_emit_iff.mp run).push data with pushed | ⟨⟨state, filled, short⟩, rfl, rfl⟩
  · exact .inl pushed.turn
  · obtain ⟨after, pieces, flag, emits⟩ := swallow_push_emits state nonempty
    refine .inr ⟨swallow_waits state, ?_, ?_⟩
    · rw [show decoder.turn (decoder.push codec.swallow data) = _ from emits]
      simp
    · intro last new flag later
      obtain ⟨all, whole, same⟩ := fixedPart_push state filled short
        (by simpa [push, swallow] using
          turn_eq_emit_iff.mp (show (push _ data).turn = .emit last new flag from later))
      exact ⟨all, flag, whole.turn, same⟩

theorem fresh_waits (limits : CodecLimits) : decoder.turn { limits := limits } = .wait := by
  have header := limits.headerBytes_pos
  have line := limits.requestLine_pos
  simp [decoder, turn, headTurn, findDoubleCrlf, Search.findSub, Int.not_lt.mpr (Int.le_of_lt header),
    Int.not_lt.mpr (Int.le_of_lt line)]

/-- Pieces that are all accepted are decoded as their concatenation is. -/
theorem feedAll_eq_whole {limits : CodecLimits} {pieces : List Bytes} {last : Http1ServerCodec}
    {events : List Event}
    (run : feedAll { limits := limits } (pieces.map fun data => (data, 0)) = (last, .ok events)) :
    ∃ whole, decoder.feed 0 { limits := limits } pieces.flatten = (last, whole, none) ∧
      mergeChunks whole = mergeChunks events := by
  have calls := feedAll_decoder run
  rw [List.map_map] at calls
  exact Decoder.feedAll_eq_feed sameMerged_coalescing decoder_stable (fresh_waits limits) calls

/-- The request decoder is a function of the byte stream: any two fragmentations that are accepted
give the same events, up to the cutting of bodies, and leave the same state. The two splits are
arbitrary, with empty pieces and of different numbers of calls, and so are the limits. What is
assumed is that neither run raises; which fragmentations are accepted at all is another theorem. -/
theorem fragmentation_agreement (limits : CodecLimits) (wire : Bytes) (first second : List Bytes)
    (firstSplit : first.flatten = wire) (secondSplit : second.flatten = wire)
    (firstCodec secondCodec : Http1ServerCodec) (firstEvents secondEvents : List Event)
    (firstRun : feedAll { limits := limits } (first.map fun data => (data, 0)) =
      (firstCodec, .ok firstEvents))
    (secondRun : feedAll { limits := limits } (second.map fun data => (data, 0)) =
      (secondCodec, .ok secondEvents)) :
    mergeChunks firstEvents = mergeChunks secondEvents ∧ firstCodec.state = secondCodec.state ∧
      firstCodec.remaining = secondCodec.remaining ∧ firstCodec.bodyReceived = secondCodec.bodyReceived ∧
      firstCodec.buffer = secondCodec.buffer := by
  obtain ⟨firstWhole, firstFeed, firstSame⟩ := feedAll_eq_whole firstRun
  obtain ⟨secondWhole, secondFeed, secondSame⟩ := feedAll_eq_whole secondRun
  rw [firstSplit] at firstFeed
  rw [secondSplit, firstFeed] at secondFeed
  cases secondFeed
  exact ⟨firstSame.symm.trans secondSame, rfl, rfl, rfl, rfl⟩

/-- A two-byte body cut in the middle, and cut just before its head ends. -/
theorem fragmentation_agreement_post :
    let cutBody := [ascii "POST /a HTTP/1.0\r\ncontent-length: 2\r\n\r\nh", ascii "i"]
    let cutHead := [ascii "POST /a HTTP/1.0\r\ncontent-length: 2\r\n\r", ascii "\nhi"]
    let head : RequestHead := {
      method := "POST".toList, target := "/a".toList, version := .http10
      headers := [("content-length".toList, "2".toList)]
      keepAlive := false, expectContinue := false, contentLength := 2 }
    feedAll { limits := {} } (cutBody.map fun data => (data, 0)) =
        ({ limits := {} }, .ok [.requestHead head, .bodyChunk [104], .bodyChunk [105], .requestEnd []]) ∧
      feedAll { limits := {} } (cutHead.map fun data => (data, 0)) =
        ({ limits := {} }, .ok [.requestHead head, .bodyChunk [104, 105], .requestEnd []]) ∧
      mergeChunks [.requestHead head, .bodyChunk [104], .bodyChunk [105], .requestEnd []] =
        mergeChunks [.requestHead head, .bodyChunk [104, 105], .requestEnd []] := by
  intro cutBody cutHead head
  have firstRun : feedAll { limits := {} } (cutBody.map fun data => (data, 0)) =
      ({ limits := {} }, .ok [.requestHead head, .bodyChunk [104], .bodyChunk [105],
        .requestEnd []]) := by rfl
  have secondRun : feedAll { limits := {} } (cutHead.map fun data => (data, 0)) =
      ({ limits := {} }, .ok [.requestHead head, .bodyChunk [104, 105], .requestEnd []]) := by rfl
  exact ⟨firstRun, secondRun,
    (fragmentation_agreement {} cutBody.flatten cutBody cutHead rfl (by decide) _ _ _ _ firstRun
      secondRun).1⟩

end Http1ServerCodec
end PccGateway
