import PccGateway.Proxy.UpstreamStep

namespace PccGateway
open Incremental Search

namespace Http1UpstreamCodec

theorem Step.size_lt {codec next : Http1UpstreamCodec} {events : List UpstreamEvent} {complete : Bool}
    (step : Step codec next events complete) : next.size < codec.size := by
  have shorter {after : Http1UpstreamCodec} (less : after.buffer.length < codec.buffer.length) :
      after.size < codec.size := by
    unfold size
    split <;> split <;> omega
  have positive (nonempty : codec.buffer ≠ []) : 0 < codec.buffer.length := List.length_pos_iff.mpr nonempty
  cases step with
  | @head block rest head state buffer delimited bound parsed more =>
    exact shorter (by simp [enterBody_buffer, buffer, doubleCrlf]; omega)
  | headOnly state buffer => exact shorter (by simp [finished, buffer, doubleCrlf])
  | fixedPart state nonempty => exact shorter (positive nonempty)
  | fixedLast state nonempty => exact shorter (positive nonempty)
  | chunkSize state buffer => exact shorter (by simp [buffer, crlf]; omega)
  | lastChunk state buffer => exact shorter (by simp [buffer, crlf]; omega)
  | chunkPart state nonempty => exact shorter (positive nonempty)
  | @chunkLast data rest state nonempty buffer length =>
    have fits : rest.length ≤ codec.buffer.length := by simp [buffer]
    simp only [size, state, if_true, reduceCtorEq, if_false]
    omega
  | chunkCrlf state buffer =>
    exact shorter (by simp only [buffer, crlf, List.length_append, List.length_cons]; omega)
  | noTrailers state buffer => exact shorter (by simp [finished, buffer, crlf])
  | trailers state buffer => exact shorter (by simp [finished, buffer, doubleCrlf])
  | untilEof state nonempty => exact shorter (positive nonempty)

theorem push_nil (codec : Http1UpstreamCodec) : codec.push [] = codec := by simp [push]

theorem push_push (codec : Http1UpstreamCodec) (first second : Bytes) :
    (codec.push first).push second = codec.push (first ++ second) := by simp [push]

/-- The codec as an incremental decoder; one response is all it decodes, so calls have no quota. -/
def decoder : Decoder Http1UpstreamCodec Exn UInt8 UpstreamEvent where
  turn := turn
  push := push
  size := size
  push_nil := push_nil
  push_push := push_push
  size_lt := fun run => (turn_eq_emit_iff.mp run).size_lt

/-- `feed`: an error discards the events that the call had collected. -/
def feed (codec : Http1UpstreamCodec) (data : Bytes) :
    Http1UpstreamCodec × Except Exn (List UpstreamEvent) :=
  if codec.closed ∨ codec.complete then
    (codec, if data ≠ [] then raiseProxy "response-complete" "bytes after upstream response" else .ok [])
  else
    match decoder.feed 0 codec data with
    | (next, events, none) => (next, .ok events)
    | (next, _, some error) => (next, .error error)

/-- `eof`. The codec is closed first, so the `feed(b"")` inside returns no events. -/
def eof (codec : Http1UpstreamCodec) : Http1UpstreamCodec × Except Exn (List UpstreamEvent) :=
  let closed := { codec with closed := true }
  if codec.state = .untilEof then
    ({ closed with state := .complete, complete := true }, .ok [.responseEnd []])
  else if codec.complete then (closed, .ok [])
  else (closed, raiseProxy "incomplete-response" "upstream closed during response")

/-- Calls of `feed` one after another, up to the first error. -/
def feedAll : Http1UpstreamCodec → List Bytes → Http1UpstreamCodec × Except Exn (List UpstreamEvent)
  | codec, [] => (codec, .ok [])
  | codec, data :: pieces =>
    match codec.feed data with
    | (next, .error error) => (next, .error error)
    | (next, .ok events) =>
      match feedAll next pieces with
      | (last, .error error) => (last, .error error)
      | (last, .ok more) => (last, .ok (events ++ more))

theorem feed_eq_ok_iff {codec next : Http1UpstreamCodec} {data : Bytes} {events : List UpstreamEvent}
    (opened : codec.closed = false) (unfinished : codec.complete = false) :
    codec.feed data = (next, .ok events) ↔
      decoder.Steps (codec.push data) next events ∧ next.turn = .wait := by
  rw [show (decoder.Steps (codec.push data) next events ∧ next.turn = .wait) ↔
    _ from Decoder.feed_ok_iff.symm]
  unfold feed
  rw [if_neg (by simp [opened, unfinished])]
  split
  · rename_i run
    simp [run]
  · rename_i run
    simp [run]

theorem feedAll_cons_eq_ok {codec last : Http1UpstreamCodec} {data : Bytes} {pieces : List Bytes}
    {events : List UpstreamEvent} (run : codec.feedAll (data :: pieces) = (last, .ok events)) :
    ∃ next first rest, codec.feed data = (next, .ok first) ∧ next.feedAll pieces = (last, .ok rest) ∧
      events = first ++ rest := by
  simp only [feedAll] at run
  split at run
  · simp at run
  · rename_i next first firstRun
    split at run
    · simp at run
    · rename_i last' rest restRun
      cases run
      exact ⟨next, first, rest, firstRun, restRun, rfl⟩

end Http1UpstreamCodec
end PccGateway
