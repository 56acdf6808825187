import PccGateway.Http1.ChunkedDecoding
import PccGateway.Proxy.UpstreamFeed

namespace PccGateway
open Incremental Search

namespace Http1UpstreamCodec

theorem steps_inv {codec next : Http1UpstreamCodec} {events : List UpstreamEvent}
    (steps : decoder.Steps codec next events) :
    next = codec ∧ events = [] ∨ ∃ middle new rest complete, Step codec middle new complete ∧
      decoder.Steps middle next rest ∧ events = new ++ rest := by
  rcases steps.inv with done | ⟨middle, new, rest, complete, turn, later, split⟩
  · exact .inl done
  · exact .inr ⟨middle, new, rest, complete, turn_eq_emit_iff.mp turn, later, split⟩

theorem Step.steps {codec next : Http1UpstreamCodec} {events : List UpstreamEvent} {complete : Bool}
    (step : Step codec next events complete) : decoder.Steps codec next events := .single step.turn

/-- One chunk: the size line, the data, and the line end that is a state of its own here. -/
theorem chunk_steps {codec : Http1UpstreamCodec} {chunk : Chunk} {rest : Bytes}
    (state : codec.state = .chunkSize)
    (buffer : codec.buffer = chunk.wire ++ rest) (valid : chunk.Valid codec.limits.maxChunkBytes)
    (room : ((codec.bodyReceived + chunk.data.length : Nat) : Int) ≤ codec.limits.maxBodyBytes) :
    decoder.Steps codec { codec with
      buffer := rest
      remaining := 0
      bodyReceived := codec.bodyReceived + chunk.data.length } [.responseBody chunk.data] := by
  have first := @Step.chunkSize codec _ (chunk.data ++ (crlf ++ rest)) _ state
    (by simp [buffer, Chunk.wire])
    valid.sizeLine.delimited valid.sizeLine.short valid.sizeLine.parsed
      (List.length_pos_iff.mpr valid.nonempty)
    valid.bound room
  have second := @Step.chunkLast { codec with
      buffer := chunk.data ++ (crlf ++ rest)
      state := .chunkData
      remaining := chunk.data.length } chunk.data (crlf ++ rest) rfl (by simp [valid.nonempty]) rfl rfl
  have third := @Step.chunkCrlf { codec with
      buffer := crlf ++ rest
      remaining := 0
      bodyReceived := codec.bodyReceived + chunk.data.length
      state := .chunkCrlf } rest rfl rfl
  rw [if_neg valid.nonempty] at second
  rw [← state] at third
  exact first.steps.trans (second.steps.trans third.steps)

theorem trailers_step {codec : Http1UpstreamCodec} {trailers : List Header}
    (state : codec.state = .trailers)
    (read : TrailerSection codec.limits.maxHeaderBytes codec.limits.maxHeaderCount codec.buffer trailers)
    (allowed : forbiddenTrailers.any (hasField trailers) = false) :
    Step codec codec.finished [.responseEnd (sanitizeHopByHop trailers)] true := by
  generalize same : codec.buffer = section_ at read
  cases read with
  | none => exact .noTrailers state same
  | fields delimited noBlank bound parsed =>
    exact .trailers state same delimited noBlank bound parsed allowed

/-- A valid chunked body with nothing behind it is read to its end. -/
theorem body_steps {codec : Http1UpstreamCodec} {body : ChunkedBody} (state : codec.state = .chunkSize)
    (buffer : codec.buffer = body.wire)
    (valid : body.Valid (codec.limits.toBodyLimits.after codec.bodyReceived))
    (allowed : forbiddenTrailers.any (hasField body.trailers) = false) :
    ∃ next : Http1UpstreamCodec,
      decoder.Steps codec next (body.chunks.map (fun chunk => .responseBody chunk.data) ++
        [.responseEnd (sanitizeHopByHop body.trailers)]) ∧
      next.state = .complete ∧ next.complete = true ∧ next.buffer = [] := by
  obtain ⟨chunks, lastLine, trailerWire, trailers⟩ := body
  induction chunks generalizing codec with
  | nil =>
    have total := valid.total
    simp only [ChunkedBody.data, BodyLimits.after, List.map_nil, List.flatten_nil, List.length_nil] at total
    have last := @Step.lastChunk codec _ trailerWire state (by simp [buffer, ChunkedBody.wire])
      valid.lastLine.delimited valid.lastLine.short valid.lastLine.parsed valid.chunkBound (by omega)
    have ends := @trailers_step { codec with buffer := trailerWire, state := .trailers } _ rfl
      valid.trailers allowed
    exact ⟨_, last.steps.trans ends.steps, rfl, rfl, rfl⟩
  | cons chunk chunks ih =>
    obtain ⟨first, later⟩ := ChunkedBody.valid_cons.mp valid
    rw [ChunkedBody.wire_cons] at buffer
    have room : ((codec.bodyReceived + chunk.data.length : Nat) : Int) ≤ codec.limits.maxBodyBytes := by
      have total := valid.total
      rw [ChunkedBody.data_cons, List.length_append] at total
      simp only [BodyLimits.after] at total
      omega
    obtain ⟨next, run, ends⟩ := @ih { codec with
      buffer := _
      remaining := 0
      bodyReceived := codec.bodyReceived + chunk.data.length } state rfl later allowed
    exact ⟨next, (chunk_steps state buffer first room).trans run, ends⟩

theorem Step.of_chunkSize {codec next : Http1UpstreamCodec} {events : List UpstreamEvent} {complete : Bool}
    (step : Step codec next events complete) (state : codec.state = .chunkSize) :
    ∃ line rest size, codec.buffer = line ++ crlf ++ rest ∧ SizeLine line size ∧ events = [] ∧
      (size : Int) ≤ codec.limits.maxChunkBytes ∧
      ((codec.bodyReceived + size : Nat) : Int) ≤ codec.limits.maxBodyBytes ∧
      (0 < size ∧ next = { codec with buffer := rest, state := .chunkData, remaining := size } ∨
        size = 0 ∧ next = { codec with buffer := rest, state := .trailers }) := by
  cases step with
  | @chunkSize line rest size _ buffer delimited short parsed positive chunkBound bodyBound =>
    exact ⟨line, rest, size, buffer, ⟨delimited, short, parsed⟩, rfl, chunkBound, bodyBound,
      .inl ⟨positive, rfl⟩⟩
  | @lastChunk line rest _ buffer delimited short parsed chunkBound bodyBound =>
    exact ⟨line, rest, 0, buffer, ⟨delimited, short, parsed⟩, rfl, chunkBound, bodyBound, .inr ⟨rfl, rfl⟩⟩
  | head other => simp [state] at other
  | headOnly other => simp [state] at other
  | fixedPart other => simp [state] at other
  | fixedLast other => simp [state] at other
  | chunkPart other => simp [state] at other
  | chunkLast other => simp [state] at other
  | chunkCrlf other => simp [state] at other
  | noTrailers other => simp [state] at other
  | trailers other => simp [state] at other
  | untilEof other => simp [state] at other

theorem Step.of_chunkData {codec next : Http1UpstreamCodec} {events : List UpstreamEvent} {complete : Bool}
    (step : Step codec next events complete) (state : codec.state = .chunkData) :
    (codec.buffer ≠ [] ∧ codec.buffer.length < codec.remaining ∧ events = [.responseBody codec.buffer] ∧
      next = { codec with
        buffer := []
        remaining := codec.remaining - codec.buffer.length
        bodyReceived := codec.bodyReceived + codec.buffer.length }) ∨
    ∃ data rest, codec.buffer = data ++ rest ∧ data.length = codec.remaining ∧
      events = (if data = [] then [] else [.responseBody data]) ∧ next = { codec with
        buffer := rest
        remaining := 0
        bodyReceived := codec.bodyReceived + codec.remaining
        state := .chunkCrlf } := by
  cases step with
  | chunkPart _ nonempty short => exact .inl ⟨nonempty, short, rfl, rfl⟩
  | @chunkLast data rest _ _ buffer length => exact .inr ⟨data, rest, buffer, length, rfl, rfl⟩
  | head other => simp [state] at other
  | headOnly other => simp [state] at other
  | fixedPart other => simp [state] at other
  | fixedLast other => simp [state] at other
  | chunkSize other => simp [state] at other
  | lastChunk other => simp [state] at other
  | chunkCrlf other => simp [state] at other
  | noTrailers other => simp [state] at other
  | trailers other => simp [state] at other
  | untilEof other => simp [state] at other

theorem Step.of_chunkCrlf {codec next : Http1UpstreamCodec} {events : List UpstreamEvent} {complete : Bool}
    (step : Step codec next events complete) (state : codec.state = .chunkCrlf) :
    ∃ rest, codec.buffer = crlf ++ rest ∧ events = [] ∧ next =
      { codec with buffer := rest, state := .chunkSize } := by
  cases step with
  | @chunkCrlf rest _ buffer => exact ⟨rest, buffer, rfl, rfl⟩
  | head other => simp [state] at other
  | headOnly other => simp [state] at other
  | fixedPart other => simp [state] at other
  | fixedLast other => simp [state] at other
  | chunkSize other => simp [state] at other
  | lastChunk other => simp [state] at other
  | chunkPart other => simp [state] at other
  | chunkLast other => simp [state] at other
  | noTrailers other => simp [state] at other
  | trailers other => simp [state] at other
  | untilEof other => simp [state] at other

theorem Step.of_trailers {codec next : Http1UpstreamCodec} {events : List UpstreamEvent} {complete : Bool}
    (step : Step codec next events complete) (state : codec.state = .trailers) :
    ∃ trailers, TrailerSection codec.limits.maxHeaderBytes codec.limits.maxHeaderCount
      codec.buffer trailers ∧
      forbiddenTrailers.any (hasField trailers) = false ∧ events =
        [.responseEnd (sanitizeHopByHop trailers)] ∧ next = codec.finished := by
  cases step with
  | noTrailers _ buffer => exact ⟨[], buffer ▸ .none, by decide, rfl, rfl⟩
  | @trailers block trailers _ buffer delimited noBlank bound parsed allowed =>
    exact ⟨trailers, buffer ▸ .fields delimited noBlank bound parsed, allowed, rfl, rfl⟩
  | head other => simp [state] at other
  | headOnly other => simp [state] at other
  | fixedPart other => simp [state] at other
  | fixedLast other => simp [state] at other
  | chunkSize other => simp [state] at other
  | lastChunk other => simp [state] at other
  | chunkPart other => simp [state] at other
  | chunkLast other => simp [state] at other
  | chunkCrlf other => simp [state] at other
  | untilEof other => simp [state] at other

/-- A run from the data of a chunk to an event that is not its data has passed the whole chunk. -/
theorem chunk_of_steps {codec next : Http1UpstreamCodec} {events : List UpstreamEvent}
    (state : codec.state = .chunkData) (positive : 0 < codec.remaining)
    (steps : decoder.Steps codec next events)
    (ends : ∃ past trailers, events = past ++ [.responseEnd trailers]) :
    ∃ data rest later, codec.buffer = data ++ crlf ++ rest ∧ data.length = codec.remaining ∧
      events = .responseBody data :: later ∧
      decoder.Steps { codec with
        buffer := rest
        remaining := 0
        bodyReceived := codec.bodyReceived + codec.remaining
        state := .chunkSize } next later := by
  obtain ⟨past, trailers, rfl⟩ := ends
  rcases steps_inv steps with ⟨_, nothing⟩ | ⟨second, new, rest, complete, step, steps, split⟩
  · simp at nothing
  · rcases step.of_chunkData state with ⟨nonempty, short, rfl, rfl⟩ |
      ⟨data, after, buffer, length, rfl, rfl⟩
    · -- all input was taken, so the run stops inside the chunk
      have idle : decoder.turn { codec with
          buffer := []
          remaining := codec.remaining - codec.buffer.length
          bodyReceived := codec.bodyReceived + codec.buffer.length } = .wait := by
        simp [decoder, turn, state, chunkDataTurn]
      obtain ⟨_, rfl⟩ := steps.of_wait idle
      simp only [List.append_nil] at split
      have last := congrArg List.getLast? split
      simp at last
    · have filled : data ≠ [] := fun empty => by simp [empty] at length; omega
      simp only [filled, if_false] at split
      rcases steps_inv steps with ⟨_, rfl⟩ | ⟨third, new, rest', complete, step, steps, rfl⟩
      · simp only [List.append_nil] at split
        have last := congrArg List.getLast? split
        simp at last
      · obtain ⟨rest, buffer', rfl, rfl⟩ := step.of_chunkCrlf rfl
        simp only at buffer'
        exact ⟨data, rest, rest', by simp [buffer, buffer'], length, by simpa using split, steps⟩

/-- A run from a chunk-size line to the end of the response has read a valid chunked body. -/
theorem body_of_steps {codec next : Http1UpstreamCodec} {pieces : List Bytes} {sanitized : List Header}
    (state : codec.state = .chunkSize)
    (steps : decoder.Steps codec next (pieces.map .responseBody ++ [.responseEnd sanitized])) :
    ∃ body : ChunkedBody, codec.buffer = body.wire ∧ body.chunks.map Chunk.data = pieces ∧
      sanitizeHopByHop body.trailers = sanitized ∧
      body.Valid (codec.limits.toBodyLimits.after codec.bodyReceived) ∧
      forbiddenTrailers.any (hasField body.trailers) = false := by
  induction pieces generalizing codec with
  | nil =>
    rcases steps_inv steps with ⟨_, nothing⟩ | ⟨second, new, rest, complete, step, steps, split⟩
    · simp at nothing
    · obtain ⟨line, after, size, buffer, sizeLine, rfl, chunkBound, bodyBound, ⟨positive, rfl⟩ |
        ⟨rfl, rfl⟩⟩ :=
        step.of_chunkSize state
      · -- data of the chunk would be delivered before the end
        obtain ⟨data, _, later, _, _, rfl, _⟩ :=
          chunk_of_steps rfl positive steps ⟨[], sanitized, by simpa using split.symm⟩
        simp at split
      · rcases steps_inv steps with ⟨_, nothing⟩ | ⟨third, new, rest, complete, step, steps, split'⟩
        · simp [nothing] at split
        · obtain ⟨trailers, read, allowed, rfl, rfl⟩ := step.of_trailers rfl
          simp only [List.map_nil, List.nil_append, split', List.cons_append, List.cons.injEq,
            UpstreamEvent.responseEnd.injEq] at split
          refine ⟨⟨[], line, after, trailers⟩, ?_, rfl, split.1.symm, ⟨by simp, ?_, sizeLine,
            chunkBound, read⟩, allowed⟩
          · simp [buffer, ChunkedBody.wire]
          · simp only [ChunkedBody.data, BodyLimits.after, List.map_nil, List.flatten_nil, List.length_nil]
            omega
  | cons piece pieces ih =>
    rcases steps_inv steps with ⟨_, nothing⟩ | ⟨second, new, rest, complete, step, steps, split⟩
    · simp at nothing
    · obtain ⟨line, after, size, buffer, sizeLine, rfl, chunkBound, bodyBound, ⟨positive, rfl⟩ |
        ⟨rfl, rfl⟩⟩ :=
        step.of_chunkSize state
      · obtain ⟨data, after', later, buffer', length, rfl, laterSteps⟩ := chunk_of_steps rfl positive steps
          ⟨.responseBody piece :: pieces.map .responseBody, sanitized, by simpa using split.symm⟩
        simp only [List.map_cons, List.cons_append, List.nil_append, List.cons.injEq,
          UpstreamEvent.responseBody.injEq]
          at split
        obtain ⟨rfl, rfl⟩ := split
        obtain ⟨⟨chunks, lastLine, section_, trailers⟩, wire, rfl, rfl, valid, allowed⟩ := ih rfl laterSteps
        simp only at buffer' length wire
        refine ⟨⟨⟨line, piece⟩ :: chunks, lastLine, section_, trailers⟩, ?_, rfl, rfl,
          ChunkedBody.valid_cons.mpr ⟨?_, ?_⟩, allowed⟩
        · rw [ChunkedBody.wire_cons, buffer, buffer', wire]
          simp [Chunk.wire]
        · subst length
          exact ⟨sizeLine, List.length_pos_iff.mp positive, chunkBound⟩
        · simpa [length] using valid
      · -- the response would end before the chunk
        rcases steps_inv steps with ⟨_, nothing⟩ | ⟨third, new, rest, complete, step, steps, split'⟩
        · simp [nothing] at split
        · obtain ⟨_, _, _, rfl, _⟩ := step.of_trailers rfl
          simp [split'] at split

end Http1UpstreamCodec
end PccGateway
