import PccGateway.Http1.Framing

namespace PccGateway
open Incremental Search

/-- The limits of a body of which `received` bytes have arrived. -/
def BodyLimits.after (limits : BodyLimits) (received : Nat) : BodyLimits :=
  { limits with maxBodyBytes := limits.maxBodyBytes - received }

namespace ChunkedBody

theorem data_cons (chunk : Chunk) (chunks : List Chunk) (lastLine trailerWire : Bytes)
    (trailers : List Header) :
    data ⟨chunk :: chunks, lastLine, trailerWire, trailers⟩ =
      chunk.data ++ data ⟨chunks, lastLine, trailerWire, trailers⟩ := rfl

theorem wire_cons (chunk : Chunk) (chunks : List Chunk) (lastLine trailerWire : Bytes)
    (trailers : List Header) :
    wire ⟨chunk :: chunks, lastLine, trailerWire, trailers⟩ =
      chunk.wire ++ wire ⟨chunks, lastLine, trailerWire, trailers⟩ := by
  simp [wire]

/-- A body that starts with a chunk is that chunk and a body with less room. -/
theorem valid_cons {limits : BodyLimits} {received : Nat} {chunk : Chunk} {chunks : List Chunk}
    {lastLine trailerWire : Bytes} {trailers : List Header} :
    Valid (limits.after received) ⟨chunk :: chunks, lastLine, trailerWire, trailers⟩ ↔
      chunk.Valid limits.maxChunkBytes ∧
        Valid (limits.after (received + chunk.data.length)) ⟨chunks, lastLine, trailerWire, trailers⟩ := by
  constructor
  · rintro ⟨valid, total, line, bound, section_⟩
    refine ⟨valid chunk (by simp), fun other member => valid other (by simp [member]), ?_, line,
      bound, section_⟩
    rw [data_cons, List.length_append] at total
    simp only [BodyLimits.after] at total ⊢
    omega
  · rintro ⟨first, valid, total, line, bound, section_⟩
    refine ⟨?_, ?_, line, bound, section_⟩
    · intro other member
      rcases List.mem_cons.mp member with rfl | member
      · exact first
      · exact valid other member
    · rw [data_cons, List.length_append]
      simp only [BodyLimits.after] at total ⊢
      omega

end ChunkedBody

namespace Http1ServerCodec

theorem feedAll_closed {codec next : Http1ServerCodec} {calls : List (Bytes × Int)} {events : List Event}
    (run : codec.feedAll calls = (next, .ok events)) : next.closed = codec.closed := by
  induction calls generalizing codec events with
  | nil => cases run; rfl
  | cons call calls ih =>
    obtain ⟨middle, first, rest, firstRun, restRun, rfl⟩ := feedAll_cons_eq_ok run
    rw [ih restRun]
    exact Decoder.Steps.preserves (P := fun state => state.closed = codec.closed)
      (fun _ _ _ _ same turn => (turn_eq_emit_iff.mp turn).closed.trans same) rfl
      (Decoder.feed_ok_steps (feed_eq_ok_iff.mp firstRun).2.2)

theorem steps_inv {codec next : Http1ServerCodec} {events : List Event}
    (steps : decoder.Steps codec next events) :
    next = codec ∧ events = [] ∨ ∃ middle new rest complete, Step codec middle new complete ∧
      decoder.Steps middle next rest ∧ events = new ++ rest := by
  rcases steps.inv with done | ⟨middle, new, rest, complete, turn, later, split⟩
  · exact .inl done
  · exact .inr ⟨middle, new, rest, complete, turn_eq_emit_iff.mp turn, later, split⟩

theorem Step.steps {codec next : Http1ServerCodec} {events : List Event} {complete : Bool}
    (step : Step codec next events complete) : decoder.Steps codec next events := .single step.turn

/-- One chunk: the size line, then the data. -/
theorem chunk_steps {codec : Http1ServerCodec} {chunk : Chunk} {rest : Bytes}
    (state : codec.state = .chunkSize)
    (buffer : codec.buffer = chunk.wire ++ rest) (valid : chunk.Valid codec.limits.maxChunkBytes)
    (room : ((codec.bodyReceived + chunk.data.length : Nat) : Int) ≤ codec.limits.maxBodyBytes) :
    decoder.Steps codec { codec with
      buffer := rest
      remaining := 0
      bodyReceived := codec.bodyReceived + chunk.data.length } [.bodyChunk chunk.data] := by
  have first := @Step.chunkSize codec _ (chunk.data ++ crlf ++ rest) _ state (by simp [buffer, Chunk.wire])
    valid.sizeLine.delimited valid.sizeLine.short valid.sizeLine.parsed
      (List.length_pos_iff.mpr valid.nonempty)
    valid.bound room
  have second := @Step.chunkData { codec with
      buffer := chunk.data ++ crlf ++ rest
      state := .chunkData
      remaining := chunk.data.length } chunk.data rest rfl rfl rfl
  rw [← state] at second
  exact first.steps.trans second.steps

theorem trailers_step {codec : Http1ServerCodec} {section_ rest : Bytes} {trailers : List Header}
    (state : codec.state = .trailers) (buffer : codec.buffer = section_ ++ rest)
    (read : TrailerSection codec.limits.maxHeaderBytes codec.limits.maxHeaderCount section_ trailers)
    (allowed : forbiddenTrailers.any (hasField trailers) = false) :
    Step codec (resetMessage { codec with buffer := rest }) [.requestEnd trailers] true := by
  cases read with
  | none => exact .noTrailers state buffer
  | fields delimited noBlank bound parsed =>
    exact .trailers state buffer delimited noBlank bound parsed allowed

theorem trailers_forbidden {codec : Http1ServerCodec} {section_ : Bytes} {trailers : List Header}
    (state : codec.state = .trailers) (buffer : codec.buffer = section_)
    (read : TrailerSection codec.limits.maxHeaderBytes codec.limits.maxHeaderCount section_ trailers)
    (forbidden : forbiddenTrailers.any (hasField trailers) = true) :
    codec.turn = .fail (.http1 ⟨400, "forbidden-trailer", "framing or routing field in trailers"⟩)
      { codec with buffer := [] } := by
  cases read with
  | none => simp [hasField, fieldValues] at forbidden
  | @fields block _ delimited noBlank bound parsed =>
    have found : findDoubleCrlf codec.buffer = some block.length :=
      findSub_eq_some_iff_exists.mpr ⟨block, [], by simpa [doubleCrlf] using buffer, rfl, delimited⟩
    have taken : codec.buffer.drop (block.length + 4) = [] := by simp [buffer, doubleCrlf]
    have given : codec.buffer.take block.length = block := by simp [buffer]
    rw [← buffer] at noBlank
    simp only [turn, state, trailersTurn, noBlank, if_false, found, Int.not_lt.mpr bound, taken,
      given, parsed, forbidden, if_true, failTurn]

/-- The data of a valid chunked body is read, whatever stands behind its last size line. -/
theorem data_steps {codec : Http1ServerCodec} {body : ChunkedBody} {rest : Bytes}
    (state : codec.state = .chunkSize) (buffer : codec.buffer = body.wire ++ rest)
    (valid : body.Valid (codec.limits.toBodyLimits.after codec.bodyReceived)) :
    ∃ remaining received, decoder.Steps codec { codec with
      buffer := body.trailerWire ++ rest
      state := .trailers
      remaining := remaining
      bodyReceived := received } (body.chunks.map fun chunk => .bodyChunk chunk.data) := by
  obtain ⟨chunks, lastLine, trailerWire, trailers⟩ := body
  induction chunks generalizing codec with
  | nil =>
    have total := valid.total
    simp only [ChunkedBody.data, BodyLimits.after, List.map_nil, List.flatten_nil, List.length_nil] at total
    have last := @Step.lastChunk codec _ (trailerWire ++ rest) state (by simp [buffer, ChunkedBody.wire])
      valid.lastLine.delimited valid.lastLine.short valid.lastLine.parsed valid.chunkBound (by omega)
    exact ⟨_, _, last.steps⟩
  | cons chunk chunks ih =>
    obtain ⟨first, later⟩ := ChunkedBody.valid_cons.mp valid
    rw [ChunkedBody.wire_cons, List.append_assoc] at buffer
    have room : ((codec.bodyReceived + chunk.data.length : Nat) : Int) ≤ codec.limits.maxBodyBytes := by
      have total := valid.total
      rw [ChunkedBody.data_cons, List.length_append] at total
      simp only [BodyLimits.after] at total
      omega
    obtain ⟨remaining, received, run⟩ := @ih { codec with
      buffer := _
      remaining := 0
      bodyReceived := codec.bodyReceived + chunk.data.length } state rfl later
    exact ⟨remaining, received, (chunk_steps state buffer first room).trans run⟩

/-- A valid chunked body is read to its end, whatever stands behind it. -/
theorem body_steps {codec : Http1ServerCodec} {body : ChunkedBody} {rest : Bytes}
    (state : codec.state = .chunkSize) (buffer : codec.buffer = body.wire ++ rest)
    (valid : body.Valid (codec.limits.toBodyLimits.after codec.bodyReceived))
    (allowed : forbiddenTrailers.any (hasField body.trailers) = false) :
    decoder.Steps codec (resetMessage { codec with buffer := rest })
      (body.chunks.map (fun chunk => .bodyChunk chunk.data) ++ [.requestEnd body.trailers]) := by
  obtain ⟨remaining, received, run⟩ := data_steps state buffer valid
  have ends := @trailers_step { codec with
    buffer := body.trailerWire ++ rest
    state := .trailers
    remaining := remaining
    bodyReceived := received } _ _ _ rfl rfl valid.trailers allowed
  exact run.trans ends.steps

theorem Step.of_chunkSize {codec next : Http1ServerCodec} {events : List Event} {complete : Bool}
    (step : Step codec next events complete) (state : codec.state = .chunkSize) :
    ∃ line rest size, codec.buffer = line ++ crlf ++ rest ∧ SizeLine line size ∧ events = [] ∧
      (size : Int) ≤ codec.limits.maxChunkBytes ∧
      ((codec.bodyReceived + size : Nat) : Int) ≤ codec.limits.maxBodyBytes ∧
      (0 < size ∧ next = { codec with buffer := rest, state := .chunkData, remaining := size } ∨
        size = 0 ∧ next = { codec with buffer := rest, state := .trailers }) := by
  cases step with
  | @chunkSize line rest size _ buffer delimited short parsed positive chunkBound bodyBound =>
    exact ⟨line, rest, size, buffer, ⟨delimited, short, parsed⟩, rfl, chunkBound, bodyBound,
      .inl ⟨positive, rfl⟩⟩
  | @lastChunk line rest _ buffer delimited short parsed chunkBound bodyBound =>
    exact ⟨line, rest, 0, buffer, ⟨delimited, short, parsed⟩, rfl, chunkBound, bodyBound, .inr ⟨rfl, rfl⟩⟩
  | headWithBody other => simp [state] at other
  | headOnly other => simp [state] at other
  | fixedPart other => simp [state] at other
  | fixedLast other => simp [state] at other
  | chunkData other => simp [state] at other
  | noTrailers other => simp [state] at other
  | trailers other => simp [state] at other

theorem Step.of_chunkData {codec next : Http1ServerCodec} {events : List Event} {complete : Bool}
    (step : Step codec next events complete) (state : codec.state = .chunkData) :
    ∃ data rest, codec.buffer = data ++ crlf ++ rest ∧ data.length = codec.remaining ∧
      events = [.bodyChunk data] ∧ next = { codec with
        buffer := rest
        bodyReceived := codec.bodyReceived + codec.remaining
        remaining := 0
        state := .chunkSize } := by
  cases step with
  | @chunkData data rest _ buffer length => exact ⟨data, rest, buffer, length, rfl, rfl⟩
  | headWithBody other => simp [state] at other
  | headOnly other => simp [state] at other
  | fixedPart other => simp [state] at other
  | fixedLast other => simp [state] at other
  | chunkSize other => simp [state] at other
  | lastChunk other => simp [state] at other
  | noTrailers other => simp [state] at other
  | trailers other => simp [state] at other

theorem Step.of_trailers {codec next : Http1ServerCodec} {events : List Event} {complete : Bool}
    (step : Step codec next events complete) (state : codec.state = .trailers) :
    ∃ section_ rest trailers, codec.buffer = section_ ++ rest ∧
      TrailerSection codec.limits.maxHeaderBytes codec.limits.maxHeaderCount section_ trailers ∧
      forbiddenTrailers.any (hasField trailers) = false ∧ events = [.requestEnd trailers] ∧
      next = resetMessage { codec with buffer := rest } := by
  cases step with
  | @noTrailers rest _ buffer => exact ⟨crlf, rest, [], buffer, .none, by decide, rfl, rfl⟩
  | @trailers block rest trailers _ buffer delimited noBlank bound parsed allowed =>
    exact ⟨block ++ doubleCrlf, rest, trailers, buffer, .fields delimited noBlank bound parsed,
      allowed, rfl, rfl⟩
  | headWithBody other => simp [state] at other
  | headOnly other => simp [state] at other
  | fixedPart other => simp [state] at other
  | fixedLast other => simp [state] at other
  | chunkSize other => simp [state] at other
  | lastChunk other => simp [state] at other
  | chunkData other => simp [state] at other

theorem Step.events_of_head {codec next : Http1ServerCodec} {events : List Event} {complete : Bool}
    (step : Step codec next events complete) (state : codec.state = .head) : events ≠ [] := by
  cases step with
  | headWithBody => simp
  | headOnly => simp
  | fixedPart other => simp [state] at other
  | fixedLast other => simp [state] at other
  | chunkSize other => simp [state] at other
  | lastChunk other => simp [state] at other
  | chunkData other => simp [state] at other
  | noTrailers other => simp [state] at other
  | trailers other => simp [state] at other

/-- A run from a chunk-size line to the end of the message has read a valid chunked body. -/
theorem body_of_steps {codec next : Http1ServerCodec} {pieces : List Bytes} {trailers : List Header}
    (state : codec.state = .chunkSize)
    (steps : decoder.Steps codec next (pieces.map .bodyChunk ++ [.requestEnd trailers])) :
    ∃ body : ChunkedBody, codec.buffer = body.wire ++ next.buffer ∧ body.chunks.map Chunk.data = pieces ∧
      body.trailers = trailers ∧ body.Valid (codec.limits.toBodyLimits.after codec.bodyReceived) ∧
      forbiddenTrailers.any (hasField trailers) = false := by
  induction pieces generalizing codec with
  | nil =>
    rcases steps_inv steps with ⟨_, nothing⟩ | ⟨second, new, rest, complete, step, steps, split⟩
    · simp at nothing
    · obtain ⟨line, after, size, buffer, sizeLine, rfl, chunkBound, bodyBound, ⟨positive, rfl⟩ |
        ⟨rfl, rfl⟩⟩ :=
        step.of_chunkSize state
      · -- data of the chunk would be delivered before the end
        rcases steps_inv steps with ⟨_, nothing⟩ | ⟨third, new, rest, complete, step, steps, split'⟩
        · simp [nothing] at split
        · obtain ⟨data, _, _, _, rfl, _⟩ := step.of_chunkData rfl
          simp [split'] at split
      · rcases steps_inv steps with ⟨_, nothing⟩ | ⟨third, new, rest, complete, step, steps, split'⟩
        · simp [nothing] at split
        · obtain ⟨section_, rest', trailers', buffer', read, allowed, rfl, rfl⟩ :=
            step.of_trailers rfl
          simp only [List.map_nil, List.nil_append, split', List.cons_append, List.cons.injEq,
            Event.requestEnd.injEq]
            at split
          obtain ⟨rfl, rfl⟩ := split
          have ends : next.buffer = rest' := by
            rcases steps_inv steps with ⟨rfl, _⟩ | ⟨fourth, new, rest, complete, step, _, split⟩
            · rfl
            · exact absurd (List.append_eq_nil_iff.mp split.symm).1 (step.events_of_head rfl)
          refine ⟨⟨[], line, section_, trailers⟩, ?_, rfl, rfl, ⟨by simp, ?_, sizeLine, chunkBound,
            read⟩, allowed⟩
          · simp only at buffer'
            simp [buffer, buffer', ends, ChunkedBody.wire]
          · simp only [ChunkedBody.data, BodyLimits.after, List.map_nil, List.flatten_nil, List.length_nil]
            omega
  | cons piece pieces ih =>
    rcases steps_inv steps with ⟨_, nothing⟩ | ⟨second, new, rest, complete, step, steps, split⟩
    · simp at nothing
    · obtain ⟨line, after, size, buffer, sizeLine, rfl, chunkBound, bodyBound, ⟨positive, rfl⟩ |
        ⟨rfl, rfl⟩⟩ :=
        step.of_chunkSize state
      · rcases steps_inv steps with ⟨_, nothing⟩ | ⟨third, new, rest, complete, step, steps, split'⟩
        · simp [nothing] at split
        · obtain ⟨data, after', buffer', length, rfl, rfl⟩ := step.of_chunkData rfl
          simp only [List.map_cons, List.cons_append, List.nil_append, split', List.cons.injEq,
            Event.bodyChunk.injEq]
            at split
          obtain ⟨rfl, rfl⟩ := split
          obtain ⟨⟨chunks, lastLine, section_, _⟩, wire, rfl, rfl, valid, allowed⟩ := ih rfl steps
          simp only at buffer' length wire
          refine ⟨⟨⟨line, piece⟩ :: chunks, lastLine, section_, _⟩, ?_, rfl, rfl,
            ChunkedBody.valid_cons.mpr ⟨?_, ?_⟩, allowed⟩
          · rw [ChunkedBody.wire_cons, buffer, buffer', wire]
            simp [Chunk.wire]
          · subst length
            exact ⟨sizeLine, List.length_pos_iff.mp positive, chunkBound⟩
          · simpa [length] using valid
      · -- the message would end before the chunk
        rcases steps_inv steps with ⟨_, nothing⟩ | ⟨third, new, rest, complete, step, steps, split'⟩
        · simp [nothing] at split
        · obtain ⟨_, _, _, _, _, _, rfl, _⟩ := step.of_trailers rfl
          simp [split'] at split

end Http1ServerCodec
end PccGateway
