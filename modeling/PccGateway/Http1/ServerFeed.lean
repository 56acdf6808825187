import PccGateway.Http1.ServerStep

namespace PccGateway
open Incremental Search
namespace Http1ServerCodec

theorem parseHead_eq_ok_iff {codec next : Http1ServerCodec} {block : Bytes} {head : RequestHead}
    {hasBody : Bool} : codec.parseHead block = .ok (next, head, hasBody) ↔
      parseRequestHead codec.limits block = .ok head ∧ codec.enterBody head = (next, hasBody) := by
  rw [parseHead, bind_eq_ok]
  constructor
  · rintro ⟨parsed, run, result⟩
    cases result
    exact ⟨run, rfl⟩
  · rintro ⟨run, entered⟩
    refine ⟨head, run, ?_⟩
    rw [entered]
    rfl

theorem enterBody_push (codec : Http1ServerCodec) (head : RequestHead) (data : Bytes) :
    (codec.push data).enterBody head = ((codec.enterBody head).1.push data, (codec.enterBody head).2) := by
  unfold enterBody
  split
  · rfl
  · split <;> rfl

theorem enterBody_buffer (codec : Http1ServerCodec) (head : RequestHead) :
    (codec.enterBody head).1.buffer = codec.buffer := by
  unfold enterBody
  split
  · rfl
  · split <;> rfl

theorem enterBody_closed (codec : Http1ServerCodec) (head : RequestHead) :
    (codec.enterBody head).1.closed = codec.closed := by
  unfold enterBody
  split
  · rfl
  · split <;> rfl

theorem Step.closed {codec next : Http1ServerCodec} {events : List Event} {complete : Bool}
    (step : Step codec next events complete) : next.closed = codec.closed := by
  cases step with
  | @headWithBody _ block rest head state buffer delimited bound parsed =>
    simpa only [(parseHead_eq_ok_iff.mp parsed).2] using enterBody_closed { codec with buffer := rest } head
  | @headOnly _ block rest head state buffer delimited bound parsed =>
    simpa only [(parseHead_eq_ok_iff.mp parsed).2] using enterBody_closed { codec with buffer := rest } head
  | _ => rfl

theorem size_le (codec : Http1ServerCodec) : codec.size ≤ 2 * codec.buffer.length + 1 := by
  unfold size
  split <;> omega

theorem Step.size_lt {codec next : Http1ServerCodec} {events : List Event} {complete : Bool}
    (step : Step codec next events complete) : next.size < codec.size := by
  have fromBuffer (taken : next.buffer.length + 1 ≤ codec.buffer.length) : next.size < codec.size := by
    have above := size_le next
    have below : 2 * codec.buffer.length ≤ codec.size := Nat.le_add_right _ _
    omega
  cases step with
  | @headWithBody _ block rest head state buffer delimited bound parsed =>
    have kept : next.buffer = rest := by
      simpa only [(parseHead_eq_ok_iff.mp parsed).2] using enterBody_buffer
        { codec with buffer := rest } head
    exact fromBuffer (by simp only [kept, buffer, doubleCrlf, List.length_append, List.length_cons]; omega)
  | @headOnly _ block rest head state buffer delimited bound parsed =>
    have kept : next.buffer = rest := by
      simpa only [(parseHead_eq_ok_iff.mp parsed).2] using enterBody_buffer
        { codec with buffer := rest } head
    exact fromBuffer (by simp only [kept, buffer, doubleCrlf, List.length_append, List.length_cons]; omega)
  | fixedPart state nonempty short =>
    have positive := List.length_pos_iff.mpr nonempty
    exact fromBuffer (by simp only [List.length_nil]; omega)
  | @fixedLast data rest state nonempty buffer length =>
    -- the only turn that may consume nothing; it leaves the fixed-body state
    simp only [size, resetMessage, state, if_true, buffer, List.length_append, reduceCtorEq, if_false]
    omega
  | @chunkSize line rest size state buffer delimited short parsed positive chunkBound bodyBound =>
    exact fromBuffer (by simp only [buffer, crlf, List.length_append, List.length_cons]; omega)
  | @lastChunk line rest state buffer delimited short parsed chunkBound bodyBound =>
    exact fromBuffer (by simp only [buffer, crlf, List.length_append, List.length_cons]; omega)
  | @chunkData data rest state buffer length =>
    exact fromBuffer (by simp only [buffer, crlf, List.length_append, List.length_cons]; omega)
  | @noTrailers rest state buffer =>
    exact fromBuffer
      (by simp only [buffer, crlf, resetMessage, List.length_append, List.length_cons]; omega)
  | @trailers block rest trailers state buffer delimited noBlank bound parsed allowed =>
    exact fromBuffer
      (by simp only [buffer, doubleCrlf, resetMessage, List.length_append, List.length_cons]; omega)

/-- The codec as an incremental decoder: `_feed_pending` is its `feed`. -/
def decoder : Decoder Http1ServerCodec Exn UInt8 Event where
  turn := turn
  push := push
  size := size
  push_nil := fun codec => by simp [push]
  push_push := fun codec first second => by simp [push]
  size_lt := fun run => (turn_eq_emit_iff.mp run).size_lt

def feedPending (codec : Http1ServerCodec) (data : Bytes) (maxMessages : Int) :
    Http1ServerCodec × List Event × Option Exn :=
  if maxMessages < 0 then (codec, [], some (.value "max_messages must be non-negative"))
  else if codec.closed then
    (codec, [], some (.http1 ⟨400, "connection-closed", "bytes received after close"⟩))
  else decoder.feed maxMessages.toNat codec data

/-- `feed`: an error discards the events that the call had collected. -/
def feed (codec : Http1ServerCodec) (data : Bytes) (maxMessages : Int := 0) :
    Http1ServerCodec × Except Exn (List Event) :=
  match codec.feedPending data maxMessages with
  | (next, events, none) => (next, .ok events)
  | (next, _, some error) => (next, .error error)

/-- `eof`; the event it returns carries nothing. -/
def eof (codec : Http1ServerCodec) : Http1ServerCodec × Except Exn Unit :=
  let closed := { codec with closed := true }
  if codec.state ≠ .head ∨ codec.buffer ≠ [] then
    (closed, raiseHttp1 400 "incomplete-request" "connection closed during request")
  else (closed, .ok ())

/-- Calls of `feed` one after another, up to the first error. -/
def feedAll : Http1ServerCodec → List (Bytes × Int) → Http1ServerCodec × Except Exn (List Event)
  | codec, [] => (codec, .ok [])
  | codec, (data, maxMessages) :: calls =>
    match codec.feed data maxMessages with
    | (next, .error error) => (next, .error error)
    | (next, .ok events) =>
      match feedAll next calls with
      | (last, .error error) => (last, .error error)
      | (last, .ok more) => (last, .ok (events ++ more))

theorem feed_eq_ok_iff {codec next : Http1ServerCodec} {data : Bytes} {maxMessages : Int}
    {events : List Event} : codec.feed data maxMessages = (next, .ok events) ↔
      0 ≤ maxMessages ∧ codec.closed = false ∧
        decoder.feed maxMessages.toNat codec data = (next, events, none) := by
  unfold feed feedPending
  split
  · rename_i pending
    split at pending
    · simp at pending
    · rename_i nonneg
      split at pending
      · simp at pending
      · rename_i opened
        simp [pending, opened, Int.not_lt.mp nonneg]
  · rename_i pending
    simp only [Prod.mk.injEq, reduceCtorEq, and_false, false_iff]
    rintro ⟨nonneg, opened, run⟩
    rw [if_neg (Int.not_lt.mpr nonneg), opened, if_neg (by simp), run] at pending
    cases pending

theorem feedAll_cons_eq_ok {codec last : Http1ServerCodec} {data : Bytes} {maxMessages : Int}
    {calls : List (Bytes × Int)} {events : List Event}
    (run : codec.feedAll ((data, maxMessages) :: calls) = (last, .ok events)) :
    ∃ next first rest, codec.feed data maxMessages = (next, .ok first) ∧
      next.feedAll calls = (last, .ok rest) ∧ events = first ++ rest := by
  simp only [feedAll] at run
  split at run
  · simp at run
  · rename_i next first firstRun
    split at run
    · simp at run
    · rename_i last' rest restRun
      cases run
      exact ⟨next, first, rest, firstRun, restRun, rfl⟩

theorem feedAll_decoder {codec last : Http1ServerCodec} {calls : List (Bytes × Int)} {events : List Event}
    (run : codec.feedAll calls = (last, .ok events)) :
    decoder.feedAll codec (calls.map fun call => (call.1, call.2.toNat)) = (last, events, none) := by
  induction calls generalizing codec events with
  | nil => cases run; rfl
  | cons call calls ih =>
    obtain ⟨next, first, rest, firstRun, restRun, rfl⟩ := feedAll_cons_eq_ok run
    simp only [List.map_cons, Decoder.feedAll, (feed_eq_ok_iff.mp firstRun).2.2, ih restRun]

end Http1ServerCodec
end PccGateway
