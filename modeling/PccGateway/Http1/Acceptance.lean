import PccGateway.Http1.Fragmentation
import PccGateway.Lib.Acceptance

namespace PccGateway
open Incremental Search

theorem findDoubleCrlf_none {data : Bytes} (absent : findCrlf data = none) : findDoubleCrlf data = none :=
  findSub_none_of_prefix (by simp) absent

/-- A head or a trailer section that outgrew its limit before its end was seen stays too long. -/
theorem doubleCrlf_beyond {data more : Bytes} {marker : Nat} (absent : findDoubleCrlf data = none)
    (found : findDoubleCrlf (data ++ more) = some marker) : data.length < marker + 4 :=
  findSub_length_lt absent found

namespace Http1ServerCodec

/-- A line without its CRLF that is already longer than its limit: the request line, or a chunk-size
line. The decoder refuses it here, without the CRLF that may come next. -/
def Overrun (codec : Http1ServerCodec) : Prop :=
  findCrlf codec.buffer = none ∧
    (codec.state = .head ∧ codec.limits.maxRequestLine < codec.buffer.length ∨
      codec.state = .chunkSize ∧ 128 < codec.buffer.length)

theorem overrun_failing {codec : Http1ServerCodec} (isOver : codec.Overrun) : decoder.Failing codec := by
  obtain ⟨absent, ⟨state, long⟩ | ⟨state, long⟩⟩ := isOver
  · by_cases huge : (codec.buffer.length : Int) > codec.limits.maxHeaderBytes <;>
      simp [Decoder.Failing, decoder, turn, state, headTurn, findDoubleCrlf_none absent, absent, long,
        huge, failTurn, Turn.outcome]
  · simp [Decoder.Failing, decoder, turn, state, chunkSizeTurn, absent, long, failTurn, Turn.outcome]

section Push
variable {codec : Http1ServerCodec} {marker : Nat}

/-- With its end in sight, a head is refused for its size or for what it says. -/
theorem headTurn_failing_iff (found : findDoubleCrlf codec.buffer = some marker) :
    codec.headTurn.outcome = some none ↔ ((marker + 4 : Nat) : Int) > codec.limits.maxHeaderBytes ∨
      ∀ head, parseRequestHead codec.limits (codec.buffer.take marker) ≠ .ok head := by
  simp only [headTurn, found]
  by_cases large : ((marker + 4 : Nat) : Int) > codec.limits.maxHeaderBytes
  · simp only [large, if_true, failTurn, Turn.outcome, true_or]
  · simp only [large, if_false, false_or, parseHead]
    cases parsed : parseRequestHead codec.limits (codec.buffer.take marker) with
    | error error => simp [bind, Except.bind, Turn.outcome]
    | ok head =>
      simp only [bind, Except.bind, pure, Except.pure, Except.ok.injEq, ne_eq, forall_eq', iff_false]
      split <;> simp_all [Turn.outcome]

theorem chunkSizeTurn_failing_iff (found : findCrlf codec.buffer = some marker) :
    codec.chunkSizeTurn.outcome = some none ↔ 128 < marker ∨
      ∀ size, parseChunkSizeLine (codec.buffer.take marker) = .ok size →
        (size : Int) > codec.limits.maxChunkBytes ∨
          ((codec.bodyReceived + size : Nat) : Int) > codec.limits.maxBodyBytes := by
  simp only [chunkSizeTurn, found]
  by_cases long : 128 < marker
  · simp only [long, if_true, failTurn, Turn.outcome, true_or]
  · simp only [long, if_false, false_or]
    cases parsed : parseChunkSizeLine (codec.buffer.take marker) with
    | error error => simp [Turn.outcome]
    | ok size =>
      simp only [Except.ok.injEq, forall_eq']
      by_cases large : (size : Int) > codec.limits.maxChunkBytes
      · simp only [large, if_true, failTurn, Turn.outcome, true_or]
      · by_cases isOver : ((codec.bodyReceived + size : Nat) : Int) > codec.limits.maxBodyBytes
        · simp only [large, isOver, if_true, if_false, failTurn, Turn.outcome, or_true]
        · simp only [large, isOver, if_false, or_self, iff_false]
          split <;> simp [Turn.outcome]

theorem trailersTurn_failing_iff (noBlank : ¬ crlf <+: codec.buffer)
    (found : findDoubleCrlf codec.buffer = some marker) :
    codec.trailersTurn.outcome = some none ↔ ((marker + 4 : Nat) : Int) > codec.limits.maxHeaderBytes ∨
      ∀ trailers, parseHeaders (splitCrlf (codec.buffer.take marker)) codec.limits.maxHeaderCount =
        .ok trailers → forbiddenTrailers.any (hasField trailers) = true := by
  simp only [trailersTurn, noBlank, found, if_false]
  by_cases large : ((marker + 4 : Nat) : Int) > codec.limits.maxHeaderBytes
  · simp only [large, if_true, failTurn, Turn.outcome, true_or]
  · simp only [large, if_false, false_or]
    cases parsed : parseHeaders (splitCrlf (codec.buffer.take marker)) codec.limits.maxHeaderCount with
    | error error => simp [Turn.outcome]
    | ok trailers =>
      simp only [Except.ok.injEq, forall_eq']
      by_cases forbidden : forbiddenTrailers.any (hasField trailers) = true
      · simp only [forbidden, if_true, failTurn, Turn.outcome]
      · simp [forbidden, Turn.outcome]

variable (data : Bytes)

theorem headTurn_failing_push (fails : codec.headTurn.outcome = some none)
    (line : findCrlf codec.buffer = none → (codec.buffer.length : Int) ≤ codec.limits.maxRequestLine) :
    (codec.push data).headTurn.outcome = some none := by
  cases found : findDoubleCrlf codec.buffer with
  | some marker =>
    have fits : marker + 4 ≤ codec.buffer.length := findSub_length found
    have same : findDoubleCrlf (codec.push data).buffer = some marker := findSub_append found data
    rw [headTurn_failing_iff found] at fails
    rw [headTurn_failing_iff same]
    simpa only [push, List.take_append_of_le_length
      (show marker ≤ codec.buffer.length by omega)] using fails
  | none =>
    have huge : (codec.buffer.length : Int) > codec.limits.maxHeaderBytes := by
      by_contra small
      have prompt : ¬ (findCrlf codec.buffer = none ∧ (codec.buffer.length : Int) >
          codec.limits.maxRequestLine) :=
        fun ⟨absent, long⟩ => absurd (line absent) (Int.not_le.mpr long)
      simp [headTurn, found, small, prompt, Turn.outcome] at fails
    cases later : findDoubleCrlf (codec.push data).buffer with
    | some marker =>
      have beyond := doubleCrlf_beyond found later
      rw [headTurn_failing_iff later]
      exact .inl (by simp only [push]; omega)
    | none =>
      have longer : ((codec.push data).buffer.length : Int) > (codec.push data).limits.maxHeaderBytes := by
        simp only [push, List.length_append]
        omega
      simp only [headTurn, later, longer, if_true, failTurn, Turn.outcome]

theorem chunkSizeTurn_failing_push (fails : codec.chunkSizeTurn.outcome = some none)
    (line : findCrlf codec.buffer = none → codec.buffer.length ≤ 128) :
    (codec.push data).chunkSizeTurn.outcome = some none := by
  cases found : findCrlf codec.buffer with
  | some marker =>
    have fits : marker + 2 ≤ codec.buffer.length := findSub_length found
    have same : findCrlf (codec.push data).buffer = some marker := findSub_append found data
    rw [chunkSizeTurn_failing_iff found] at fails
    rw [chunkSizeTurn_failing_iff same]
    simpa only [push, List.take_append_of_le_length
      (show marker ≤ codec.buffer.length by omega)] using fails
  | none => simp [chunkSizeTurn, found, Nat.not_lt.mpr (line found), Turn.outcome] at fails

theorem chunkDataTurn_failing_push (fails : codec.chunkDataTurn.outcome = some none) :
    (codec.push data).chunkDataTurn.outcome = some none := by
  unfold chunkDataTurn at fails ⊢
  split at fails
  · simp [Turn.outcome] at fails
  · rename_i long
    have longer : ¬ (codec.push data).buffer.length < (codec.push data).remaining + 2 := by
      simp only [push, List.length_append]
      omega
    have same : ((codec.push data).buffer.drop (codec.push data).remaining).take 2 =
        (codec.buffer.drop codec.remaining).take 2 := by
      simp only [push]
      rw [List.drop_append_of_le_length (by omega), List.take_append_of_le_length (by simp; omega)]
    rw [if_neg longer, same]
    split at fails
    · rename_i ending
      rw [if_pos ending]
      rfl
    · simp [Turn.outcome] at fails

theorem trailersTurn_failing_push (fails : codec.trailersTurn.outcome = some none) :
    (codec.push data).trailersTurn.outcome = some none := by
  have positive := codec.limits.headerBytes_pos
  have noBlank : ¬ crlf <+: codec.buffer := fun here => by simp [trailersTurn, here, Turn.outcome] at fails
  have stays (long : 2 ≤ codec.buffer.length) : ¬ crlf <+: (codec.push data).buffer := fun here =>
    noBlank (List.prefix_of_prefix_length_le here (List.prefix_append _ _) (by simpa [crlf] using long))
  cases found : findDoubleCrlf codec.buffer with
  | some marker =>
    have fits : marker + 4 ≤ codec.buffer.length := findSub_length found
    have same : findDoubleCrlf (codec.push data).buffer = some marker := findSub_append found data
    rw [trailersTurn_failing_iff noBlank found] at fails
    rw [trailersTurn_failing_iff (stays (by omega)) same]
    simpa only [push, List.take_append_of_le_length
      (show marker ≤ codec.buffer.length by omega)] using fails
  | none =>
    have huge : (codec.buffer.length : Int) > codec.limits.maxHeaderBytes := by
      by_contra small
      simp [trailersTurn, noBlank, found, small, Turn.outcome] at fails
    cases later : findDoubleCrlf (codec.push data).buffer with
    | some marker =>
      have beyond := doubleCrlf_beyond found later
      rw [trailersTurn_failing_iff (stays (by omega)) later]
      exact .inl (by simp only [push]; omega)
    | none =>
      have longer : ((codec.push data).buffer.length : Int) > (codec.push data).limits.maxHeaderBytes := by
        simp only [push, List.length_append]
        omega
      simp only [trailersTurn, stays (by omega), later, longer, if_true, if_false, failTurn, Turn.outcome]

theorem failing_push (fails : decoder.Failing codec) (prompt : ¬ codec.Overrun) :
    decoder.Failing (codec.push data) := by
  unfold Decoder.Failing at *
  change codec.turn.outcome = some none at fails
  change (codec.push data).turn.outcome = some none
  have state : (codec.push data).state = codec.state := rfl
  unfold turn at *
  rw [state]
  cases here : codec.state with
  | head =>
    rw [here] at fails
    refine headTurn_failing_push data fails fun absent => ?_
    by_contra long
    exact prompt ⟨absent, .inl ⟨here, by omega⟩⟩
  | fixedBody =>
    rw [here] at fails
    simp only [fixedBodyTurn] at fails
    split at fails
    · simp [Turn.outcome] at fails
    · split at fails <;> simp [Turn.outcome] at fails
  | chunkSize =>
    rw [here] at fails
    refine chunkSizeTurn_failing_push data fails fun absent => ?_
    by_contra long
    exact prompt ⟨absent, .inr ⟨here, by omega⟩⟩
  | chunkData =>
    rw [here] at fails
    exact chunkDataTurn_failing_push data fails
  | trailers =>
    rw [here] at fails
    exact trailersTurn_failing_push data fails

end Push

theorem decoder_coherent : decoder.Coherent Overrun where
  late_fails := fun _ isOver => overrun_failing isOver
  fails := fun _ fails prompt data => failing_push data fails prompt
  goes_on := fun codec next events complete run data nonempty => by
    rcases (turn_eq_emit_iff.mp run).push data with pushed | ⟨⟨state, filled, short⟩, rfl, rfl⟩
    · exact .inl (Decoder.outcome_eq_some_iff.mpr ⟨_, _, pushed.turn⟩)
    · obtain ⟨last, new, flag, emits⟩ := swallow_push_emits state nonempty
      obtain ⟨all, whole, _⟩ :=
        fixedPart_push state filled short (by simpa [push, swallow] using turn_eq_emit_iff.mp emits)
      have first : decoder.turn (decoder.push codec data) = .emit last all flag := whole.turn
      have second : decoder.turn (decoder.push codec.swallow data) = .emit last new flag := emits
      refine .inr ⟨swallow_waits state, by simp [first, second, Turn.outcome], ?_, ?_⟩
      · simp [Overrun, decoder, push, state]
      · simp [Overrun, decoder, push, swallow, state]

/-- Calls of `feed` on a fresh codec, without a bound on messages, one of which raises. -/
def Refuses (limits : CodecLimits) (pieces : List Bytes) : Prop :=
  (feedAll { limits := limits } (pieces.map fun data => (data, 0))).2.isOk = false

/-- The bytes are malformed, or too large somewhere: their decoding ends in a turn that fails. -/
def Malformed (limits : CodecLimits) (wire : Bytes) : Prop :=
  decoder.Gets decoder.Failing (push { limits := limits } wire)

/-- One of the cuts falls into a line that is longer than its limit, before its CRLF. -/
def CutInOverrun (limits : CodecLimits) (pieces : List Bytes) : Prop :=
  ∃ before, before <+: pieces ∧ decoder.Gets Overrun (push { limits := limits } before.flatten)

theorem feed_closed {codec next : Http1ServerCodec} {data : Bytes} {events : List Event}
    (run : decoder.feed 0 codec data = (next, events, none)) (opened : codec.closed = false) :
    next.closed = false :=
  Decoder.Steps.preserves (P := fun codec => codec.closed = false)
    (fun _ _ _ _ held turn => (turn_eq_emit_iff.mp turn).closed.trans held) opened
      (Decoder.feed_ok_steps run)

/-- What `feed` raises is what the loop of the decoder fails with. -/
theorem feedAll_error_iff {codec : Http1ServerCodec} (opened : codec.closed = false) (pieces : List Bytes) :
    (codec.feedAll (pieces.map fun data => (data, 0))).2.isOk = false ↔
      (decoder.feedAll codec (pieces.map fun data => (data, 0))).2.2 ≠ none := by
  induction pieces generalizing codec with
  | nil => simp [feedAll, Decoder.feedAll, Except.isOk, Except.toBool]
  | cons data pieces ih =>
    have pending : codec.feedPending data 0 = decoder.feed 0 codec data := by simp [feedPending, opened]
    simp only [List.map_cons, feedAll, Decoder.feedAll, feed, pending]
    rcases run : decoder.feed 0 codec data with ⟨next, events, error | _⟩
    · rw [← ih (feed_closed run opened)]
      rcases rest : next.feedAll (pieces.map fun data => (data, 0)) with ⟨last, error | more⟩ <;>
        simp [rest, Except.isOk, Except.toBool]
    · simp [Except.isOk, Except.toBool]

/-- A split is refused when its bytes are, or when a cut falls into an overrun line. -/
theorem refuses_iff (limits : CodecLimits) (pieces : List Bytes) :
    Refuses limits pieces ↔ Malformed limits pieces.flatten ∨ CutInOverrun limits pieces := by
  rw [Refuses, feedAll_error_iff rfl pieces]
  exact decoder_coherent.feedAll_raises_iff (fresh_waits limits) pieces

end Http1ServerCodec
end PccGateway
