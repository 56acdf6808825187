import PccGateway.Http1.ServerFeed
import PccGateway.Lib.Pumping

namespace PccGateway
open Incremental

namespace Http1ServerCodec

/-- `feed(data, 1)` and then `feed(b"", 1)`, until a call returns no events or raises. -/
def pump : Nat → Http1ServerCodec → Bytes → Option (Http1ServerCodec × List Event × Option Exn)
  | 0, _, _ => none
  | calls + 1, codec, data =>
    match codec.feed data 1 with
    | (next, .error error) => some (next, [], some error)
    | (next, .ok []) => some (next, [], none)
    | (next, .ok events) =>
      (pump calls next []).map fun (last, more, error) => (last, events ++ more, error)

theorem decoder_marked : decoder.Marked Event.isEnd where
  last := by
    intro codec next events turn
    have step : Step codec next events true := turn_eq_emit_iff.mp turn
    cases step with
    | @headOnly _ block rest head => exact ⟨[.requestHead head], _, rfl, rfl⟩
    | @fixedLast data rest => exact ⟨_, _, rfl, rfl⟩
    | noTrailers => exact ⟨[], _, rfl, rfl⟩
    | trailers => exact ⟨[], _, rfl, rfl⟩
  within := by
    intro codec next events turn
    have step : Step codec next events false := turn_eq_emit_iff.mp turn
    cases step <;> simp [Event.isEnd]

/-- Decoding never closes the codec. -/
theorem steps_closed {codec next : Http1ServerCodec} {events : List Event}
    (steps : decoder.Steps codec next events) :
    next.closed = codec.closed := by
  induction steps with
  | refl => rfl
  | head turn _ ih => exact ih.trans (turn_eq_emit_iff.mp turn).closed

theorem pump_eq_decoder {calls : Nat} {codec : Http1ServerCodec} {data : Bytes}
    (opened : codec.closed = false) :
    codec.pump calls data = decoder.pump calls codec data := by
  induction calls generalizing codec data with
  | zero => rfl
  | succ calls ih =>
    have pending : codec.feedPending data 1 = decoder.feed 1 codec data := by simp [feedPending, opened]
    rcases run : decoder.feed 1 codec data with ⟨next, events, _ | error⟩
    · have kept : next.closed = false := (steps_closed (Decoder.feed_ok_steps run)).trans opened
      cases events <;> simp [pump, Decoder.pump, feed, pending, run, ih kept]
    · simp [pump, Decoder.pump, feed, pending, run]

/-- One-message calls decode what the unlimited call decodes. When it raises in some message, they
return the messages before that one and raise the same error. The codec is in any state whatever,
and the data are any bytes. How many calls are needed is not said. -/
theorem one_message_pumping (codec : Http1ServerCodec) (data : Bytes) :
    (∀ next events, codec.feed data 0 = (next, .ok events) → ∃ calls, codec.pump calls data =
      some (next, events, none)) ∧ ∀ next error, codec.feed data 0 = (next, .error error) →
      ∃ calls events, codec.feedPending data 0 = (next, events, some error) ∧
        codec.pump calls data = some (next, Decoder.wholeMessages Event.isEnd events, some error) := by
  cases opened : codec.closed with
  | true =>
    have refused : codec.feed data 0 =
        (codec, .error (.http1 ⟨400, "connection-closed", "bytes received after close"⟩)) := by
      simp [feed, feedPending, opened]
    refine ⟨fun next events run => by simp [refused] at run, fun next error run => ?_⟩
    rw [refused] at run
    cases run
    exact ⟨1, [], by simp [feedPending, opened],
      by simp [pump, feed, feedPending, opened, Decoder.wholeMessages]⟩
  | false =>
    have pending : codec.feedPending data 0 = decoder.feed 0 codec data := by simp [feedPending, opened]
    constructor
    · intro next events run
      obtain ⟨calls, pumped⟩ := Decoder.pump_eq_feed decoder_marked (feed_eq_ok_iff.mp run).2.2
      exact ⟨calls, by rw [pump_eq_decoder opened, pumped]; rfl⟩
    · intro next error run
      unfold feed at run
      rw [pending] at run ⊢
      rcases fed : decoder.feed 0 codec data with ⟨last, events, _ | raised⟩
      · simp [fed] at run
      · simp only [fed, Prod.mk.injEq, Except.error.injEq] at run
        obtain ⟨rfl, rfl⟩ := run
        obtain ⟨calls, pumped⟩ := Decoder.pump_eq_feed decoder_marked fed
        exact ⟨calls, events, rfl, by rw [pump_eq_decoder opened, pumped]; rfl⟩

/-- A request and a malformed one behind it. -/
def badSecond : Bytes := ascii "GET / HTTP/1.0\r\n\r\nGET\r\n\r\n"

theorem one_message_pumping_badSecond : ∃ calls events, let fresh : Http1ServerCodec := { limits := {} }
    fresh.feedPending badSecond 0 = (fresh, events, some (.http1 ⟨400, "bad-request-line",
      "invalid request-line spacing"⟩)) ∧
    fresh.pump calls badSecond = some (fresh, Decoder.wholeMessages Event.isEnd events,
      some (.http1 ⟨400, "bad-request-line", "invalid request-line spacing"⟩)) :=
  (one_message_pumping { limits := {} } badSecond).2 _ _ (by decide)

end Http1ServerCodec
end PccGateway
