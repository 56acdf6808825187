import PccGateway.Proxy.UpstreamFeed

namespace PccGateway
open Incremental Search

/-- A head that `_parse_head` returned for `method` under `limits`. -/
def ParsedHead (method : Text) (limits : BodyLimits) (head : UpstreamResponseHead) : Prop :=
  ∃ block, parseResponseHead method limits block = .ok head

/-- Trailers as the codec delivers them: parsed, free of framing fields, sanitised. -/
def DeliveredTrailers (limits : BodyLimits) (trailers : List Header) : Prop :=
  ∃ lines raw, parseHeaders lines limits.maxHeaderCount = .ok raw ∧
    Http1UpstreamCodec.forbiddenTrailers.any (hasField raw) = false ∧ trailers = sanitizeHopByHop raw

/-- How the body after a final head was framed, with the bytes and the trailers it had. -/
inductive FramedResponse (limits : BodyLimits) (head : UpstreamResponseHead) : Bytes → List Header → Prop
  | empty : head.bodyExpected = false ∨ head.contentLength = 0 → FramedResponse limits head [] []
  | fixed {data : Bytes} : head.bodyExpected = true → head.chunked = false →
      (data.length : Int) = head.contentLength → FramedResponse limits head data []
  | chunked {data : Bytes} {trailers : List Header} : head.bodyExpected = true → head.chunked = true →
      DeliveredTrailers limits trailers → FramedResponse limits head data trailers
  | untilEof {data : Bytes} : head.bodyExpected = true → head.chunked = false → head.contentLength < 0 →
      FramedResponse limits head data []

/-- A body that is being received after `head`, of which `received` bytes were delivered. -/
inductive BodyProgress (codec : Http1UpstreamCodec) (head : UpstreamResponseHead) (received : Nat) : Prop
  | fixed : codec.state = .fixedBody → head.chunked = false →
      ((received + codec.remaining : Nat) : Int) = head.contentLength → 0 < codec.remaining →
      BodyProgress codec head received
  | chunked : codec.state = .chunkSize ∨ codec.state = .chunkCrlf ∨ codec.state = .trailers →
      head.chunked = true → codec.bodyReceived = received → BodyProgress codec head received
  | chunkData : codec.state = .chunkData → head.chunked = true → codec.bodyReceived = received →
      0 < codec.remaining → BodyProgress codec head received
  | untilEof : codec.state = .untilEof → head.chunked = false → head.contentLength < 0 →
      codec.bodyReceived = received → BodyProgress codec head received

/-- Where the decoder stands after the events `past`: informational heads, then the final head, then
body pieces, then the end. -/
inductive Progress (codec : Http1UpstreamCodec) : List UpstreamEvent → Prop
  | heads {informational : List UpstreamResponseHead} :
      codec.state = .head → codec.complete = false → codec.bodyReceived = 0 →
      (∀ head ∈ informational, head.informational = true ∧
        ParsedHead codec.requestMethod codec.limits.toBodyLimits head) →
      Progress codec (informational.map .responseHead)
  | body {informational : List UpstreamResponseHead} {head : UpstreamResponseHead} {pieces : List Bytes} :
      codec.complete = false →
      (∀ head ∈ informational, head.informational = true ∧
        ParsedHead codec.requestMethod codec.limits.toBodyLimits head) →
      head.informational = false → ParsedHead codec.requestMethod codec.limits.toBodyLimits head →
      head.bodyExpected = true → BodyProgress codec head pieces.flatten.length →
      (∀ piece ∈ pieces, piece ≠ []) →
      Progress codec (informational.map .responseHead ++ .responseHead head :: pieces.map .responseBody)
  | done {informational : List UpstreamResponseHead} {head : UpstreamResponseHead} {pieces : List Bytes}
      {trailers : List Header} :
      codec.state = .complete → codec.complete = true →
      (∀ head ∈ informational, head.informational = true ∧
        ParsedHead codec.requestMethod codec.limits.toBodyLimits head) →
      head.informational = false → ParsedHead codec.requestMethod codec.limits.toBodyLimits head →
      FramedResponse codec.limits.toBodyLimits head pieces.flatten trailers →
      (∀ piece ∈ pieces, piece ≠ []) → Progress codec (informational.map .responseHead ++
        .responseHead head :: (pieces.map .responseBody ++ [.responseEnd trailers]))

namespace Progress
variable {codec next : Http1UpstreamCodec} {past new : List UpstreamEvent}

theorem head_inv (progress : Progress codec past) (state : codec.state = .head) :
    ∃ informational : List UpstreamResponseHead, past = informational.map .responseHead ∧
    codec.complete = false ∧
      codec.bodyReceived = 0 ∧ ∀ head ∈ informational, head.informational = true ∧
        ParsedHead codec.requestMethod codec.limits.toBodyLimits head := by
  cases progress with
  | heads _ unfinished received informational => exact ⟨_, rfl, unfinished, received, informational⟩
  | body _ _ _ _ _ body =>
    rcases body with ⟨other⟩ | ⟨other⟩ | ⟨other⟩ | ⟨other⟩ <;> simp [state] at other
  | done other => simp [state] at other

theorem body_inv (progress : Progress codec past) (inBody : codec.state ≠ .head)
    (more : codec.state ≠ .complete) :
    ∃ (informational : List UpstreamResponseHead) (head : UpstreamResponseHead) (pieces : List Bytes),
      past = informational.map .responseHead ++ .responseHead head :: pieces.map .responseBody ∧
      codec.complete = false ∧
      (∀ head ∈ informational, head.informational = true ∧
        ParsedHead codec.requestMethod codec.limits.toBodyLimits head) ∧
      head.informational = false ∧ ParsedHead codec.requestMethod codec.limits.toBodyLimits head ∧
      head.bodyExpected = true ∧ BodyProgress codec head pieces.flatten.length ∧ ∀ piece ∈ pieces,
      piece ≠ [] := by
  cases progress with
  | heads state => exact absurd state inBody
  | body unfinished infos final parsed expected body filled =>
    exact ⟨_, _, _, rfl, unfinished, infos, final, parsed, expected, body, filled⟩
  | done state => exact absurd state more

/-- The response goes on: the body may have grown by one piece. -/
theorem goes_on (progress : Progress codec past) (inBody : codec.state ≠ .head)
    (more : codec.state ≠ .complete)
    (next : Http1UpstreamCodec) (method : next.requestMethod = codec.requestMethod)
    (limits : next.limits = codec.limits) (unfinished : next.complete = codec.complete) (data : Bytes)
    (body : ∀ head received, BodyProgress codec head received →
      BodyProgress next head (received + data.length)) :
    Progress next (past ++ if data = [] then [] else [.responseBody data]) := by
  obtain ⟨informational, head, pieces, rfl, running, infos, final, parsed, expected, before, filled⟩ :=
    progress.body_inv inBody more
  have after := body head _ before
  rw [← method, ← limits] at infos parsed
  rw [← unfinished] at running
  by_cases empty : data = []
  · simp only [empty, List.length_nil, Nat.add_zero] at after
    simpa [empty] using Progress.body running infos final parsed expected after filled
  · have total : (pieces ++ [data]).flatten.length = pieces.flatten.length + data.length := by simp
    rw [← total] at after
    have grown : ∀ piece ∈ pieces ++ [data], piece ≠ [] := by simpa [or_imp, forall_and, empty] using filled
    simpa [empty] using Progress.body running infos final parsed expected after grown

/-- The response ends, perhaps with a last piece. -/
theorem ends (progress : Progress codec past) (inBody : codec.state ≠ .head)
    (more : codec.state ≠ .complete)
    (next : Http1UpstreamCodec) (method : next.requestMethod = codec.requestMethod)
    (limits : next.limits = codec.limits) (state : next.state = .complete)
    (complete : next.complete = true) (data : Bytes) (trailers : List Header)
    (framed : ∀ head body, head.bodyExpected = true → BodyProgress codec head body.length →
      FramedResponse codec.limits.toBodyLimits head (body ++ data) trailers) :
    Progress next (past ++ (if data = [] then [] else [.responseBody data]) ++
      [.responseEnd trailers]) := by
  obtain ⟨informational, head, pieces, rfl, _, infos, final, parsed, expected, before, filled⟩ :=
    progress.body_inv inBody more
  have whole := framed head pieces.flatten expected before
  rw [← limits] at whole
  rw [← method, ← limits] at infos parsed
  by_cases empty : data = []
  · simp only [empty, List.append_nil] at whole
    simpa [empty] using Progress.done state complete infos final parsed whole filled
  · have total : (pieces ++ [data]).flatten = pieces.flatten ++ data := by simp
    rw [← total] at whole
    have grown : ∀ piece ∈ pieces ++ [data], piece ≠ [] := by simpa [or_imp, forall_and, empty] using filled
    simpa [empty] using Progress.done state complete infos final parsed whole grown

theorem enterBody_frame (codec : Http1UpstreamCodec) (head : UpstreamResponseHead) :
    (codec.enterBody head).requestMethod = codec.requestMethod ∧ (codec.enterBody head).limits =
    codec.limits ∧
      (codec.enterBody head).complete = codec.complete ∧ (codec.enterBody head).closed = codec.closed ∧
      (codec.enterBody head).bodyReceived = codec.bodyReceived := by
  unfold Http1UpstreamCodec.enterBody
  split <;> [simp; (split <;> [simp; (split <;> [simp; (split <;> simp)])])]

/-- A head was read: an informational one, or the final one of a response with a body. -/
theorem of_head {informational : List UpstreamResponseHead} {head : UpstreamResponseHead}
    (unfinished : codec.complete = false) (received : codec.bodyReceived = 0)
    (infos : ∀ head ∈ informational, head.informational = true ∧
      ParsedHead codec.requestMethod codec.limits.toBodyLimits head)
    (parsed : ParsedHead codec.requestMethod codec.limits.toBodyLimits head)
    (more : (codec.enterBody head).state ≠ .finalEmpty) :
    Progress (codec.enterBody head) (informational.map .responseHead ++ [.responseHead head]) := by
  obtain ⟨method, limits, complete, _, bodyReceived⟩ := enterBody_frame codec head
  rw [← complete] at unfinished
  rw [← bodyReceived] at received
  rw [← method, ← limits] at infos parsed
  by_cases final : head.informational = true
  · have state : (codec.enterBody head).state = .head := by simp [Http1UpstreamCodec.enterBody, final]
    have listed : ∀ other ∈ informational ++ [head], other.informational = true ∧
        ParsedHead (codec.enterBody head).requestMethod (codec.enterBody head).limits.toBodyLimits
          other := by
      simpa [or_imp, forall_and, final, parsed] using infos
    simpa using Progress.heads state unfinished received listed
  · have final : head.informational = false := by simpa using final
    have entered : head.bodyExpected = true ∧ BodyProgress (codec.enterBody head) head 0 := by
      unfold Http1UpstreamCodec.enterBody at more received ⊢
      simp only [final, Bool.false_eq_true, if_false] at more received ⊢
      split at more
      · simp at more
      · rename_i filled
        simp only [not_or, Bool.not_eq_false] at filled
        rw [if_neg (by simp [filled])] at received ⊢
        refine ⟨filled.1, ?_⟩
        split
        · rename_i chunked
          exact .chunked (.inl rfl) chunked (by simpa [chunked] using received)
        · rename_i plain
          split
          · exact .fixed rfl (by simpa using plain) (by simp; omega) (by simp; omega)
          · rename_i negative
            exact .untilEof rfl (by simpa using plain) (by omega)
              (by simpa [plain, negative] using received)
    simpa using @Progress.body _ _ _ [] unfinished infos final parsed entered.1
      (by simpa using entered.2) (by simp)

theorem step {complete : Bool} (progress : Progress codec past)
    (turn : Http1UpstreamCodec.Step codec next new complete) : Progress next (past ++ new) := by
  cases turn with
  | @head block rest head state buffer delimited bound parsed more =>
    obtain ⟨informational, rfl, unfinished, received, infos⟩ := progress.head_inv state
    exact @of_head { codec with buffer := rest } _ _ unfinished received infos ⟨block, parsed⟩ more
  | @headOnly block head state buffer delimited bound parsed empty =>
    obtain ⟨informational, rfl, unfinished, received, infos⟩ := progress.head_inv state
    have final : head.informational = false := by
      by_contra other
      simp [Http1UpstreamCodec.enterBody, Bool.not_eq_false _ ▸ other] at empty
    have bare : head.bodyExpected = false ∨ head.contentLength = 0 := by
      by_contra filled
      simp only [Http1UpstreamCodec.enterBody, final, Bool.false_eq_true, filled, if_false] at empty
      split at empty <;> [simp at empty; (split at empty <;> simp at empty)]
    simpa using @Progress.done codec.finished _ _ [] _ rfl rfl infos final ⟨block, parsed⟩ (.empty bare)
      (by simp)
  | fixedPart state nonempty short =>
    have after := progress.goes_on (by simp [state]) (by simp [state]) { codec with
        buffer := []
        remaining := codec.remaining - codec.buffer.length
        bodyReceived := codec.bodyReceived + codec.buffer.length } rfl rfl rfl codec.buffer fun head
          received body => by
        rcases body with ⟨_, plain, total, positive⟩ | ⟨other⟩ | ⟨other⟩ | ⟨other⟩
        · exact .fixed state plain (by simp; omega) (by simp; omega)
        · simp [state] at other
        · simp [state] at other
        · simp [state] at other
    simpa [nonempty] using after
  | fixedLast state nonempty same =>
    have after := progress.ends (by simp [state]) (by simp [state])
      (Http1UpstreamCodec.finished { codec with
        remaining := 0
        bodyReceived := codec.bodyReceived + codec.remaining }) rfl rfl rfl rfl codec.buffer []
          fun head body expected before => by
        rcases before with ⟨_, plain, total, _⟩ | ⟨other⟩ | ⟨other⟩ | ⟨other⟩
        · exact .fixed expected plain (by simp; omega)
        · simp [state] at other
        · simp [state] at other
        · simp [state] at other
    simpa [nonempty] using after
  | @chunkSize line rest size state buffer delimited short parsed positive chunkBound bodyBound =>
    have after := progress.goes_on (by simp [state]) (by simp [state])
      { codec with buffer := rest, state := .chunkData, remaining := size } rfl rfl rfl [] fun head
      received body => by
        rcases body with ⟨other⟩ | ⟨_, chunked, total⟩ | ⟨other⟩ | ⟨other⟩
        · simp [state] at other
        · exact .chunkData rfl chunked total positive
        · simp [state] at other
        · simp [state] at other
    simpa using after
  | @lastChunk line rest state buffer delimited short parsed chunkBound bodyBound =>
    have after := progress.goes_on (by simp [state]) (by simp [state])
      { codec with buffer := rest, state := .trailers } rfl rfl rfl [] fun head received body => by
        rcases body with ⟨other⟩ | ⟨_, chunked, total⟩ | ⟨other⟩ | ⟨other⟩
        · simp [state] at other
        · exact .chunked (.inr (.inr rfl)) chunked total
        · simp [state] at other
        · simp [state] at other
    simpa using after
  | chunkPart state nonempty short =>
    have after := progress.goes_on (by simp [state]) (by simp [state]) { codec with
        buffer := []
        remaining := codec.remaining - codec.buffer.length
        bodyReceived := codec.bodyReceived + codec.buffer.length } rfl rfl rfl codec.buffer fun head
          received body => by
        rcases body with ⟨other⟩ | ⟨other⟩ | ⟨_, chunked, total, _⟩ | ⟨other⟩
        · simp [state] at other
        · simp [state] at other
        · exact .chunkData state chunked (by simp [total]) (by simp; omega)
        · simp [state] at other
    simpa [nonempty] using after
  | @chunkLast data rest state nonempty buffer length =>
    exact progress.goes_on (by simp [state]) (by simp [state]) { codec with
        buffer := rest
        remaining := 0
        bodyReceived := codec.bodyReceived + codec.remaining
        state := .chunkCrlf } rfl rfl rfl data fun head received body => by
        rcases body with ⟨other⟩ | ⟨other⟩ | ⟨_, chunked, total, _⟩ | ⟨other⟩
        · simp [state] at other
        · simp [state] at other
        · exact .chunked (.inr (.inl rfl)) chunked (by simp [total, length])
        · simp [state] at other
  | @chunkCrlf rest state buffer =>
    have after := progress.goes_on (by simp [state]) (by simp [state])
      { codec with buffer := rest, state := .chunkSize } rfl rfl rfl [] fun head received body => by
        rcases body with ⟨other⟩ | ⟨_, chunked, total⟩ | ⟨other⟩ | ⟨other⟩
        · simp [state] at other
        · exact .chunked (.inl rfl) chunked total
        · simp [state] at other
        · simp [state] at other
    simpa using after
  | noTrailers state buffer =>
    have after := progress.ends (by simp [state]) (by simp [state]) codec.finished rfl rfl rfl rfl [] []
      fun head body expected before => by
        rcases before with ⟨other⟩ | ⟨_, chunked, _⟩ | ⟨other⟩ | ⟨other⟩
        · simp [state] at other
        · exact .chunked expected chunked ⟨[], [], rfl, by decide, rfl⟩
        · simp [state] at other
        · simp [state] at other
    simpa using after
  | @trailers block trailers state buffer delimited noBlank bound parsed allowed =>
    have after := progress.ends (by simp [state]) (by simp [state]) codec.finished rfl rfl rfl rfl []
      (sanitizeHopByHop trailers) fun head body expected before => by
        rcases before with ⟨other⟩ | ⟨_, chunked, _⟩ | ⟨other⟩ | ⟨other⟩
        · simp [state] at other
        · exact .chunked expected chunked ⟨splitCrlf block, trailers, parsed, allowed, rfl⟩
        · simp [state] at other
        · simp [state] at other
    simpa using after
  | untilEof state nonempty bound =>
    have after := progress.goes_on (by simp [state]) (by simp [state]) { codec with
        buffer := []
        bodyReceived := codec.bodyReceived + codec.buffer.length } rfl rfl rfl codec.buffer fun head
          received body => by
        rcases body with ⟨other⟩ | ⟨other⟩ | ⟨other⟩ | ⟨_, plain, negative, total⟩
        · simp [state] at other
        · simp [state] at other
        · simp [state] at other
        · exact .untilEof state plain negative (by simp [total])
    simpa [nonempty] using after

theorem push (progress : Progress codec past) (data : Bytes) : Progress (codec.push data) past := by
  cases progress with
  | heads state unfinished received infos => exact .heads state unfinished received infos
  | body unfinished infos final parsed expected body filled =>
    refine .body unfinished infos final parsed expected ?_ filled
    rcases body with ⟨state, plain, total, positive⟩ | ⟨state, chunked, total⟩ |
      ⟨state, chunked, total, positive⟩ | ⟨state, plain, negative, total⟩
    · exact .fixed state plain total positive
    · exact .chunked state chunked total
    · exact .chunkData state chunked total positive
    · exact .untilEof state plain negative total
  | done state complete infos final parsed framed filled =>
    exact .done state complete infos final parsed framed filled

theorem feed {data : Bytes} (progress : Progress codec past) (run : codec.feed data = (next, .ok new)) :
    Progress next (past ++ new) := by
  unfold Http1UpstreamCodec.feed at run
  split at run
  · split at run
    · simp [raiseProxy] at run
    · cases run
      simpa using progress
  · split at run
    · rename_i whole
      cases run
      exact Decoder.Steps.invariant (P := Progress)
        (fun _ _ _ _ _ held turn => held.step (Http1UpstreamCodec.turn_eq_emit_iff.mp turn))
          (progress.push data)
        (Decoder.feed_ok_steps whole)
    · simp at run

theorem feedAll {pieces : List Bytes} (progress : Progress codec past)
    (run : codec.feedAll pieces = (next, .ok new)) :
    Progress next (past ++ new) := by
  induction pieces generalizing codec past new with
  | nil =>
    cases run
    simpa using progress
  | cons piece pieces ih =>
    obtain ⟨middle, first, rest, firstRun, restRun, rfl⟩ := Http1UpstreamCodec.feedAll_cons_eq_ok run
    simpa using ih (progress.feed firstRun) restRun

theorem eof (progress : Progress codec past) (run : codec.eof = (next, .ok new)) :
    Progress next (past ++ new) := by
  unfold Http1UpstreamCodec.eof at run
  simp only at run
  split at run
  · rename_i state
    cases run
    have after := progress.ends (by simp [state]) (by simp [state])
      { codec with state := .complete, complete := true, closed := true } rfl rfl rfl rfl [] []
      fun head body expected before => by
        rcases before with ⟨other⟩ | ⟨other⟩ | ⟨other⟩ | ⟨_, plain, negative, _⟩
        · simp [state] at other
        · simp [state] at other
        · simp [state] at other
        · exact .untilEof expected plain negative
    simpa using after
  · split at run
    · cases run
      cases progress with
      | heads _ unfinished => simp_all
      | body unfinished => simp_all
      | done state complete infos final parsed framed filled =>
        simpa using @Progress.done { codec with closed := true } _ _ _ _ state complete infos final
          parsed framed filled
    · simp [raiseProxy] at run

end Progress

namespace Http1UpstreamCodec

/-- The parts of the codec that no turn changes. -/
theorem Step.frame {codec next : Http1UpstreamCodec} {events : List UpstreamEvent} {complete : Bool}
    (step : Step codec next events complete) :
    next.requestMethod = codec.requestMethod ∧ next.limits = codec.limits ∧
      next.closed = codec.closed := by
  cases step with
  | @head block rest head =>
    obtain ⟨method, limits, _, closed, _⟩ := Progress.enterBody_frame { codec with buffer := rest } head
    exact ⟨method, limits, closed⟩
  | _ => exact ⟨rfl, rfl, rfl⟩

theorem feed_frame {codec next : Http1UpstreamCodec} {data : Bytes} {events : List UpstreamEvent}
    (run : codec.feed data = (next, .ok events)) : next.requestMethod = codec.requestMethod ∧
      next.limits = codec.limits ∧ next.closed = codec.closed := by
  unfold feed at run
  split at run
  · obtain ⟨rfl, _⟩ := Prod.mk.inj run
    exact ⟨rfl, rfl, rfl⟩
  · split at run
    · rename_i whole
      cases run
      refine Decoder.Steps.preserves (P := fun state => state.requestMethod = codec.requestMethod ∧
        state.limits = codec.limits ∧ state.closed = codec.closed) ?_ ⟨rfl, rfl, rfl⟩
        (Decoder.feed_ok_steps whole)
      intro state after new complete held turn
      obtain ⟨method, limits, closed⟩ := (turn_eq_emit_iff.mp turn).frame
      exact ⟨method.trans held.1, limits.trans held.2.1, closed.trans held.2.2⟩
    · simp at run

theorem feedAll_frame {codec next : Http1UpstreamCodec} {pieces : List Bytes} {events : List UpstreamEvent}
    (run : codec.feedAll pieces = (next, .ok events)) : next.requestMethod = codec.requestMethod ∧
      next.limits = codec.limits ∧ next.closed = codec.closed := by
  induction pieces generalizing codec events with
  | nil => cases run; exact ⟨rfl, rfl, rfl⟩
  | cons piece pieces ih =>
    obtain ⟨middle, first, rest, firstRun, restRun, rfl⟩ := feedAll_cons_eq_ok run
    obtain ⟨method, limits, closed⟩ := feed_frame firstRun
    obtain ⟨method', limits', closed'⟩ := ih restRun
    exact ⟨method'.trans method, limits'.trans limits, closed'.trans closed⟩

end Http1UpstreamCodec
end PccGateway
