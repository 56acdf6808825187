import PccGateway.Http1.Message

namespace PccGateway
open Incremental Search

/-- What an accepted head went through, part by part. -/
theorem parseRequestHead_eq_ok_iff {limits : CodecLimits} {block : Bytes} {head : RequestHead} :
    parseRequestHead limits block = .ok head ↔
      ∃ method target version headers contentLength chunked expectContinue,
        parseRequestLine limits.maxRequestLine ((splitCrlf block).headD []) =
          .ok (method, target, version) ∧
        parseHeaders (splitCrlf block).tail limits.maxHeaderCount = .ok headers ∧
        checkHost version headers = .ok () ∧
        requestContentLength limits.maxBodyBytes headers = .ok contentLength ∧
        requestChunked contentLength headers = .ok chunked ∧
        requestExpectContinue headers = .ok expectContinue ∧
        head = {
          method := latin1Text method
          target := latin1Text target
          version := version
          headers := headers
          keepAlive := connectionKeepAlive version headers
          expectContinue := expectContinue
          contentLength := if chunked ∨ 0 ≤ contentLength then contentLength else 0
          chunked := chunked } := by
  simp only [parseRequestHead, bind_eq_ok, Prod.exists]
  constructor
  · rintro ⟨method, target, version, line, headers, fields, _, host, length, lengthRun, chunked, coding,
      expectation, expectRun, result⟩
    cases result
    exact ⟨method, target, version, headers, length, chunked, expectation, line, fields, host,
      lengthRun, coding, expectRun, rfl⟩
  · rintro ⟨method, target, version, headers, length, chunked, expectation, line, fields, host,
      lengthRun, coding, expectRun, rfl⟩
    exact ⟨method, target, version, line, headers, fields, (), host, length, lengthRun, chunked, coding,
      expectation, expectRun, rfl⟩

theorem requestContentLength_range {maxBodyBytes length : Int} {headers : List Header}
    (run : requestContentLength maxBodyBytes headers = .ok length) :
    fieldValues headers "content-length" = [] ∧ length = -1 ∨
      (∃ raw, fieldValues headers "content-length" = [raw]) ∧ 0 ≤ length := by
  unfold requestContentLength at run
  split at run
  · rename_i absent
    cases run
    exact .inl ⟨absent, rfl⟩
  · rename_i raw present
    simp only [ite_raiseHttp1_eq_ok, bind_eq_ok] at run
    obtain ⟨_, _, _, value, _, _, result⟩ := run
    cases result
    exact .inr ⟨⟨raw, present⟩, by omega⟩
  · simp [raiseHttp1] at run

theorem requestChunked_eq_ok_iff {length : Int} {headers : List Header} {chunked : Bool} :
    requestChunked length headers = .ok chunked ↔
      hasField headers "transfer-encoding" = false ∧ chunked = false ∨
      hasField headers "transfer-encoding" = true ∧ length < 0 ∧
        fieldTokens headers "transfer-encoding" = ["chunked".toList] ∧ chunked = true := by
  unfold requestChunked
  by_cases present : hasField headers "transfer-encoding" = true
  · simp only [present, not_true_eq_false, if_false, ite_raiseHttp1_eq_ok, not_not, Except.ok.injEq,
      Bool.true_eq_false, false_and, false_or, true_and]
    exact ⟨fun ⟨a, b, c⟩ => ⟨by omega, b, c.symm⟩, fun ⟨a, b, c⟩ => ⟨by omega, b, c.symm⟩⟩
  · simp [present, eq_comm]

/-- The framing fields of an accepted head: at most one of the two kinds, at most one length. -/
theorem parseRequestHead_framing {limits : CodecLimits} {block : Bytes} {head : RequestHead}
    (run : parseRequestHead limits block = .ok head) :
    ¬ (hasField head.headers "content-length" ∧ hasField head.headers "transfer-encoding") ∧
      (fieldValues head.headers "content-length").length ≤ 1 ∧
      (head.chunked = false → 0 ≤ head.contentLength) := by
  obtain ⟨method, target, version, headers, length, chunked, expectation, _, _, _, lengthRun,
    coding, _, rfl⟩ :=
    parseRequestHead_eq_ok_iff.mp run
  have range := requestContentLength_range lengthRun
  have coded := requestChunked_eq_ok_iff.mp coding
  refine ⟨?_, ?_, ?_⟩
  · rintro ⟨lengthField, codingField⟩
    rcases coded with ⟨absent, _⟩ | ⟨_, negative, _⟩
    · simp only at codingField
      rw [absent] at codingField
      cases codingField
    · rcases range with ⟨absent, _⟩ | ⟨_, nonneg⟩
      · simp [hasField, absent] at lengthField
      · omega
  · rcases range with ⟨absent, _⟩ | ⟨⟨raw, present⟩, _⟩ <;> simp [*]
  · rintro rfl
    simp only [Bool.false_eq_true, false_or]
    split <;> omega

namespace Http1ServerCodec

theorem enterBody_limits (codec : Http1ServerCodec) (head : RequestHead) :
    (codec.enterBody head).1.limits = codec.limits := by
  unfold enterBody
  split
  · rfl
  · split <;> rfl

theorem Step.limits {codec next : Http1ServerCodec} {events : List Event} {complete : Bool}
    (step : Step codec next events complete) : next.limits = codec.limits := by
  cases step with
  | @headWithBody _ block rest head state buffer delimited bound parsed =>
    simpa only [(parseHead_eq_ok_iff.mp parsed).2] using enterBody_limits { codec with buffer := rest } head
  | @headOnly _ block rest head state buffer delimited bound parsed =>
    simpa only [(parseHead_eq_ok_iff.mp parsed).2] using enterBody_limits { codec with buffer := rest } head
  | _ => rfl

end Http1ServerCodec

namespace Partial
variable {limits : CodecLimits} {codec next : Http1ServerCodec} {taken : Bytes} {past new : List Event}

theorem head_inv (part : Partial limits codec taken past) (state : codec.state = .head) :
    taken = [] ∧ past = [] ∧ codec.remaining = 0 ∧ codec.bodyReceived = 0 := by
  cases part with
  | idle _ remaining received => exact ⟨rfl, rfl, remaining, received⟩
  | fixed other => simp [state] at other
  | chunkSize other => simp [state] at other
  | chunkData other => simp [state] at other
  | trailers other => simp [state] at other

theorem fixedBody_inv (part : Partial limits codec taken past) (state : codec.state = .fixedBody) :
    ∃ (block : Bytes) (head : RequestHead) (pieces : List Bytes), HeadBlock limits block head ∧
    head.chunked = false ∧
      ((pieces.flatten.length + codec.remaining : Nat) : Int) = head.contentLength ∧ 0 < codec.remaining ∧
      (∀ piece ∈ pieces, piece ≠ []) ∧ taken = block ++ doubleCrlf ++ pieces.flatten ∧
      past = .requestHead head :: pieces.map .bodyChunk := by
  cases part with
  | fixed _ block plain length positive filled =>
    exact ⟨_, _, _, block, plain, length, positive, filled, rfl, rfl⟩
  | idle other => simp [state] at other
  | chunkSize other => simp [state] at other
  | chunkData other => simp [state] at other
  | trailers other => simp [state] at other

theorem chunkSize_inv (part : Partial limits codec taken past) (state : codec.state = .chunkSize) :
    ∃ (block : Bytes) (head : RequestHead) (chunks : List Chunk), HeadBlock limits block head ∧
    head.chunked = true ∧ (∀ chunk ∈ chunks, chunk.Valid limits.maxChunkBytes) ∧
      codec.bodyReceived = (chunks.map Chunk.data).flatten.length ∧
      taken = block ++ doubleCrlf ++ (chunks.map Chunk.wire).flatten ∧
      past = .requestHead head :: chunks.map fun chunk => .bodyChunk chunk.data := by
  cases part with
  | chunkSize _ block chunked valid received => exact ⟨_, _, _, block, chunked, valid, received, rfl, rfl⟩
  | idle other => simp [state] at other
  | fixed other => simp [state] at other
  | chunkData other => simp [state] at other
  | trailers other => simp [state] at other

theorem chunkData_inv (part : Partial limits codec taken past) (state : codec.state = .chunkData) :
    ∃ (block line : Bytes) (head : RequestHead) (chunks : List Chunk), HeadBlock limits block head ∧
    head.chunked = true ∧ (∀ chunk ∈ chunks, chunk.Valid limits.maxChunkBytes) ∧
      codec.bodyReceived = (chunks.map Chunk.data).flatten.length ∧
      SizeLine line codec.remaining ∧ 0 < codec.remaining ∧ (codec.remaining : Int) ≤ limits.maxChunkBytes ∧
      taken = block ++ doubleCrlf ++ (chunks.map Chunk.wire).flatten ++ line ++ crlf ∧
      past = .requestHead head :: chunks.map fun chunk => .bodyChunk chunk.data := by
  cases part with
  | chunkData _ block chunked valid received line positive bound =>
    exact ⟨_, _, _, _, block, chunked, valid, received, line, positive, bound, rfl, rfl⟩
  | idle other => simp [state] at other
  | fixed other => simp [state] at other
  | chunkSize other => simp [state] at other
  | trailers other => simp [state] at other

theorem trailers_inv (part : Partial limits codec taken past) (state : codec.state = .trailers) :
    ∃ (block line : Bytes) (head : RequestHead) (chunks : List Chunk), HeadBlock limits block head ∧
    head.chunked = true ∧ (∀ chunk ∈ chunks, chunk.Valid limits.maxChunkBytes) ∧
      ((chunks.map Chunk.data).flatten.length : Int) ≤ limits.maxBodyBytes ∧
      SizeLine line 0 ∧ 0 ≤ limits.maxChunkBytes ∧
      taken = block ++ doubleCrlf ++ (chunks.map Chunk.wire).flatten ++ line ++ crlf ∧
      past = .requestHead head :: chunks.map fun chunk => .bodyChunk chunk.data := by
  cases part with
  | trailers _ block chunked valid total line bound =>
    exact ⟨_, _, _, _, block, chunked, valid, total, line, bound, rfl, rfl⟩
  | idle other => simp [state] at other
  | fixed other => simp [state] at other
  | chunkSize other => simp [state] at other
  | chunkData other => simp [state] at other

/-- A message whose trailer section has just been read. -/
theorem trailers_done (part : Partial limits codec taken past) (state : codec.state = .trailers)
    {section_ : Bytes} {trailers : List Header}
    (read : TrailerSection limits.maxHeaderBytes limits.maxHeaderCount section_ trailers)
    (allowed : Http1ServerCodec.forbiddenTrailers.any (hasField trailers) = false) :
    ∃ message : Message, message.Valid limits ∧ message.wire = taken ++ section_ ∧
      message.events = past ++ [.requestEnd trailers] := by
  obtain ⟨block, line, head, chunks, headBlock, chunked, valid, total, lastLine, bound, rfl, rfl⟩ :=
    part.trailers_inv state
  refine ⟨⟨block, head, .chunked ⟨chunks, line, section_, trailers⟩⟩, ⟨headBlock, ?_⟩, ?_, ?_⟩
  · exact .chunked chunked ⟨valid, total, lastLine, bound, read⟩ allowed
  · simp [Message.wire, MessageBody.wire, ChunkedBody.wire]
  · simp [Message.events, MessageBody.events]

/-- A head that was just parsed, for a request with a body. -/
theorem of_enterBody (idle : codec.remaining = 0 ∧ codec.bodyReceived = 0) {block : Bytes}
    {head : RequestHead}
    (headBlock : HeadBlock limits block head) (entered : codec.enterBody head = (next, true)) :
    Partial limits next (block ++ doubleCrlf) [.requestHead head] := by
  unfold Http1ServerCodec.enterBody at entered
  split at entered
  · rename_i chunked
    cases entered
    simpa using @Partial.chunkSize limits { codec with state := .chunkSize } _ _ [] rfl headBlock chunked
      (by simp) (by simpa using idle.2)
  · rename_i plain
    split at entered
    · rename_i positive
      cases entered
      simpa using @Partial.fixed limits
        { codec with state := .fixedBody, remaining := head.contentLength.toNat } _ _ [] rfl headBlock
        (by simpa using plain) (by simp; omega) (by simp; omega) (by simp)
    · simp at entered

/-- A request without a body is complete with its head. -/
theorem of_enterBody_empty {block : Bytes} {head : RequestHead} (headBlock : HeadBlock limits block head)
    (nonneg : head.chunked = false → 0 ≤ head.contentLength)
    (entered : codec.enterBody head = (next, false)) :
    Partial limits next [] [] ∧ (Message.mk block head (.fixed [])).Valid limits := by
  unfold Http1ServerCodec.enterBody at entered
  split at entered
  · simp at entered
  · rename_i plain
    split at entered
    · simp at entered
    · rename_i zero
      cases entered
      have plain : head.chunked = false := by simpa using plain
      exact ⟨.idle rfl rfl rfl, headBlock,
        .fixed plain (by simpa using by have := nonneg plain; omega) (by simp)⟩

/-- One turn either goes on with the message it is in or completes it. In both cases the bytes it
takes are the next bytes of the buffer, and every one of them belongs to that message. -/
theorem step {complete : Bool} (same : limits = codec.limits) (part : Partial limits codec taken past)
    (turn : Http1ServerCodec.Step codec next new complete) :
    ∃ consumed, codec.buffer = consumed ++ next.buffer ∧
      (Partial limits next (taken ++ consumed) (past ++ new) ∨
        Partial limits next [] [] ∧ ∃ message : Message, message.Valid limits ∧
          message.wire = taken ++ consumed ∧ message.events = past ++ new) := by
  subst same
  cases turn with
  | @headWithBody _ block rest head state buffer delimited bound parsed =>
    obtain ⟨rfl, rfl, remaining, received⟩ := part.head_inv state
    obtain ⟨run, entered⟩ := Http1ServerCodec.parseHead_eq_ok_iff.mp parsed
    have kept : next.buffer = rest := by
      simpa only [entered] using Http1ServerCodec.enterBody_buffer { codec with buffer := rest } head
    refine ⟨block ++ doubleCrlf, by rw [buffer, kept], .inl ?_⟩
    exact @of_enterBody _ { codec with buffer := rest } _ ⟨remaining, received⟩ _ _
      ⟨delimited, bound, run⟩ entered
  | @headOnly _ block rest head state buffer delimited bound parsed =>
    obtain ⟨rfl, rfl, remaining, received⟩ := part.head_inv state
    obtain ⟨run, entered⟩ := Http1ServerCodec.parseHead_eq_ok_iff.mp parsed
    have kept : next.buffer = rest := by
      simpa only [entered] using Http1ServerCodec.enterBody_buffer { codec with buffer := rest } head
    obtain ⟨idle, valid⟩ :=
      of_enterBody_empty ⟨delimited, bound, run⟩ (parseRequestHead_framing run).2.2 entered
    refine ⟨block ++ doubleCrlf, by rw [buffer, kept], .inr ⟨idle, _, valid, ?_, ?_⟩⟩
    · simp [Message.wire, MessageBody.wire]
    · simp [Message.events, MessageBody.events]
  | fixedPart state nonempty short =>
    obtain ⟨block, head, pieces, headBlock, plain, length, _, filled, rfl, rfl⟩ := part.fixedBody_inv state
    refine ⟨codec.buffer, by simp, .inl ?_⟩
    have step := @Partial.fixed codec.limits { codec with
        buffer := []
        remaining := codec.remaining - codec.buffer.length
        bodyReceived := codec.bodyReceived + codec.buffer.length } _ _ (pieces ++ [codec.buffer])
      state headBlock plain (by simp [-List.length_flatten]; omega) (by simp; omega)
      (by simpa [or_imp, forall_and, nonempty] using filled)
    simpa using step
  | @fixedLast data rest state nonempty buffer length =>
    obtain ⟨block, head, pieces, headBlock, plain, total, positive, filled, rfl, rfl⟩ :=
      part.fixedBody_inv state
    have some : data ≠ [] := fun empty => by simp [empty] at length; omega
    refine ⟨data, buffer, .inr ⟨.idle rfl rfl rfl, ⟨block, head, .fixed (pieces ++ [data])⟩,
      ⟨headBlock, ?_⟩, ?_, ?_⟩⟩
    · exact .fixed plain (by simp [-List.length_flatten]; omega)
        (by simpa [or_imp, forall_and, some] using filled)
    · simp [Message.wire, MessageBody.wire]
    · simp [Message.events, MessageBody.events, some]
  | @chunkSize line rest size state buffer delimited short parsed positive chunkBound bodyBound =>
    obtain ⟨block, head, chunks, headBlock, chunked, valid, received, rfl, rfl⟩ := part.chunkSize_inv state
    refine ⟨line ++ crlf, buffer, .inl ?_⟩
    have step := @Partial.chunkData codec.limits
      { codec with buffer := rest, state := .chunkData, remaining := size }
      _ _ _ _ rfl headBlock chunked valid received ⟨delimited, short, parsed⟩ positive chunkBound
    simpa using step
  | @lastChunk line rest state buffer delimited short parsed chunkBound bodyBound =>
    obtain ⟨block, head, chunks, headBlock, chunked, valid, received, rfl, rfl⟩ := part.chunkSize_inv state
    refine ⟨line ++ crlf, buffer, .inl ?_⟩
    have step := @Partial.trailers codec.limits { codec with buffer := rest, state := .trailers } _ _ _ _
      rfl headBlock chunked valid (by omega) ⟨delimited, short, parsed⟩ chunkBound
    simpa using step
  | @chunkData data rest state buffer length =>
    obtain ⟨block, line, head, chunks, headBlock, chunked, valid, received, sizeLine, positive, bound,
      rfl, rfl⟩ :=
      part.chunkData_inv state
    have some : data ≠ [] := fun empty => by simp [empty] at length; omega
    have chunk : Chunk.Valid codec.limits.maxChunkBytes ⟨line, data⟩ :=
      ⟨length ▸ sizeLine, some, length ▸ bound⟩
    refine ⟨data ++ crlf, buffer, .inl ?_⟩
    have step := @Partial.chunkSize codec.limits { codec with
        buffer := rest
        bodyReceived := codec.bodyReceived + codec.remaining
        remaining := 0
        state := .chunkSize } _ _ (chunks ++ [⟨line, data⟩])
      rfl headBlock chunked (by simpa [or_imp, forall_and, chunk] using valid) (by simp [received, length])
    simpa [Chunk.wire] using step
  | @noTrailers rest state buffer =>
    exact ⟨crlf, buffer, .inr ⟨.idle rfl rfl rfl, part.trailers_done state .none (by decide)⟩⟩
  | @trailers block rest trailers state buffer delimited noBlank bound parsed allowed =>
    exact ⟨block ++ doubleCrlf, buffer, .inr ⟨.idle rfl rfl rfl,
      part.trailers_done state (.fields delimited noBlank bound parsed) allowed⟩⟩

theorem push (part : Partial limits codec taken past) (data : Bytes) :
    Partial limits (codec.push data) taken past := by
  cases part with
  | idle state remaining received => exact .idle state remaining received
  | fixed state headBlock plain length positive filled =>
    exact .fixed state headBlock plain length positive filled
  | chunkSize state headBlock chunked valid received =>
    exact .chunkSize state headBlock chunked valid received
  | chunkData state headBlock chunked valid received sizeLine positive bound =>
    exact .chunkData state headBlock chunked valid received sizeLine positive bound
  | trailers state headBlock chunked valid total sizeLine bound =>
    exact .trailers state headBlock chunked valid total sizeLine bound

end Partial

/-- The bytes received so far and the events they gave: whole messages one after another, then the
message in progress, then the bytes that wait in the buffer. -/
structure Decoded (limits : CodecLimits) (wire : Bytes) (codec : Http1ServerCodec) (events : List Event)
    (messages : List Message) (taken : Bytes) (past : List Event) : Prop where
  wire_eq : wire = (messages.map Message.wire).flatten ++ taken ++ codec.buffer
  events_eq : events = (messages.map Message.events).flatten ++ past
  valid : ∀ message ∈ messages, message.Valid limits
  inProgress : Partial limits codec taken past
  limits_eq : limits = codec.limits

namespace Decoded
variable {limits : CodecLimits} {wire : Bytes} {codec next : Http1ServerCodec} {events new : List Event}

theorem step {complete : Bool}
    (decoded : ∃ messages taken past, Decoded limits wire codec events messages taken past)
    (turn : Http1ServerCodec.Step codec next new complete) :
    ∃ messages taken past, Decoded limits wire next (events ++ new) messages taken past := by
  obtain ⟨messages, taken, past, before⟩ := decoded
  have limits_eq : limits = next.limits := before.limits_eq.trans turn.limits.symm
  obtain ⟨consumed, buffer, goesOn | ⟨idle, message, valid, messageWire, messageEvents⟩⟩ :=
    before.inProgress.step before.limits_eq turn
  · refine ⟨messages, taken ++ consumed, past ++ new, ?_, ?_, before.valid, goesOn, limits_eq⟩
    · simp [before.wire_eq, buffer]
    · simp [before.events_eq]
  · refine ⟨messages ++ [message], [], [], ?_, ?_, ?_, idle, limits_eq⟩
    · simp [before.wire_eq, buffer, messageWire]
    · simp [before.events_eq, messageEvents]
    · simpa [or_imp, forall_and, valid] using before.valid

theorem feed {data : Bytes} {quota : Nat}
    (decoded : ∃ messages taken past, Decoded limits wire codec events messages taken past)
    (run : Http1ServerCodec.decoder.feed quota codec data = (next, new, none)) :
    ∃ messages taken past, Decoded limits (wire ++ data) next (events ++ new) messages taken past := by
  obtain ⟨messages, taken, past, before⟩ := decoded
  refine Decoder.Steps.invariant
    (P := fun codec events => ∃ messages taken past,
      Decoded limits (wire ++ data) codec events messages taken past)
    (fun _ _ _ _ _ held turn => step held (Http1ServerCodec.turn_eq_emit_iff.mp turn)) ?_
      (Decoder.feed_ok_steps run)
  refine ⟨messages, taken, past, ?_, before.events_eq, before.valid, before.inProgress.push data,
    before.limits_eq⟩
  rw [before.wire_eq]
  exact List.append_assoc _ _ _

theorem feedAll {calls : List (Bytes × Int)}
    (decoded : ∃ messages taken past, Decoded limits wire codec events messages taken past)
    (run : codec.feedAll calls = (next, .ok new)) :
    ∃ messages taken past, Decoded limits (wire ++ (calls.map Prod.fst).flatten) next (events ++ new)
      messages taken past := by
  induction calls generalizing codec wire events new with
  | nil =>
    cases run
    simpa using decoded
  | cons call calls ih =>
    obtain ⟨middle, first, rest, firstRun, restRun, rfl⟩ := Http1ServerCodec.feedAll_cons_eq_ok run
    have later := ih (feed decoded (Http1ServerCodec.feed_eq_ok_iff.mp firstRun).2.2) restRun
    simpa using later

/-- Every head among the events passed `_parse_head`. -/
theorem head_parsed {messages : List Message} {taken : Bytes} {past : List Event}
    (decoded : Decoded limits wire codec events messages taken past) {head : RequestHead}
    (member : .requestHead head ∈ events) : ∃ block, parseRequestHead limits block = .ok head := by
  rw [decoded.events_eq, List.mem_append] at member
  rcases member with inMessage | inProgress
  · simp only [List.mem_flatten, List.mem_map, exists_exists_and_eq_and] at inMessage
    obtain ⟨message, listed, inEvents⟩ := inMessage
    have own : head = message.head := by
      cases framed : message.body <;> simp_all [Message.events, MessageBody.events]
    exact ⟨message.block, own ▸ (decoded.valid message listed).headBlock.parsed⟩
  · cases decoded.inProgress with
    | idle => simp at inProgress
    | fixed _ headBlock => simp at inProgress; exact ⟨_, inProgress ▸ headBlock.parsed⟩
    | chunkSize _ headBlock => simp at inProgress; exact ⟨_, inProgress ▸ headBlock.parsed⟩
    | chunkData _ headBlock => simp at inProgress; exact ⟨_, inProgress ▸ headBlock.parsed⟩
    | trailers _ headBlock => simp at inProgress; exact ⟨_, inProgress ▸ headBlock.parsed⟩

end Decoded

/-- The input is exactly partitioned into messages. Each message is its head block up to the first
blank line, then its body: `content_length` bytes, or the chunked encoding with its zero-size chunk
and trailers. What follows the last whole message is the message in progress and the unread buffer.
This holds behind every sequence of calls that has not raised, with any limits and any quotas of
messages. The grammar of messages is stated without the codec, so that nothing about the decoder's
own states is presupposed. -/
theorem framing_exact (limits : CodecLimits) (calls : List (Bytes × Int)) (codec : Http1ServerCodec)
    (events : List Event)
    (run : Http1ServerCodec.feedAll { limits := limits } calls = (codec, .ok events)) :
    (∃ (messages : List Message) (taken : Bytes) (past : List Event),
      (calls.map Prod.fst).flatten = (messages.map Message.wire).flatten ++ taken ++ codec.buffer ∧
      events = (messages.map Message.events).flatten ++ past ∧
      (∀ message ∈ messages, message.Valid limits) ∧ Partial limits codec taken past) ∧
    ∀ head, .requestHead head ∈ events →
      ¬ (hasField head.headers "content-length" ∧ hasField head.headers "transfer-encoding") ∧
      (fieldValues head.headers "content-length").length ≤ 1 := by
  have start : ∃ messages taken past, Decoded limits [] { limits := limits } [] messages taken past :=
    ⟨[], [], [], rfl, rfl, by simp, .idle rfl rfl rfl, rfl⟩
  obtain ⟨messages, taken, past, decoded⟩ := Decoded.feedAll start run
  refine ⟨⟨messages, taken, past, by simpa using decoded.wire_eq, by simpa using decoded.events_eq,
    decoded.valid, decoded.inProgress⟩, ?_⟩
  intro head member
  obtain ⟨block, parsed⟩ := decoded.head_parsed (by simpa using member)
  obtain ⟨notBoth, atMostOne, _⟩ := parseRequestHead_framing parsed
  exact ⟨notBoth, atMostOne⟩

/-- A chunked request with a request behind it, in two reads. -/
theorem framing_exact_pipeline :
    let calls : List (Bytes × Int) :=
      [(ascii "PUT / HTTP/1.0\r\ntransfer-encoding: chunked\r\n\r\n2\r\nh", 0),
        (ascii "i\r\n0\r\n\r\nGET /b HTTP/1.0\r\n\r\n", 0)]
    let events : List Event :=
      [.requestHead ⟨"PUT".toList, "/".toList, .http10,
        [("transfer-encoding".toList, "chunked".toList)], false, false, -1, true⟩,
        .bodyChunk [104, 105], .requestEnd [],
        .requestHead ⟨"GET".toList, "/b".toList, .http10, [], false, false, 0, false⟩, .requestEnd []]
    Http1ServerCodec.feedAll { limits := {} } calls = ({ limits := {} }, .ok events) ∧
      ∃ (messages : List Message) (taken : Bytes) (past : List Event),
        (calls.map Prod.fst).flatten = (messages.map Message.wire).flatten ++ taken ++ [] ∧
        events = (messages.map Message.events).flatten ++ past ∧
        (∀ message ∈ messages, message.Valid {}) ∧ Partial {} { limits := {} } taken past := by
  intro calls events
  have run : Http1ServerCodec.feedAll { limits := {} } calls = ({ limits := {} }, .ok events) := by rfl
  exact ⟨run, (framing_exact {} calls _ events run).1⟩

end PccGateway
