import PccGateway.Http1.ChunkedEncoding
import PccGateway.Proxy.ResponseHead
import PccGateway.Proxy.ResponseWire
import PccGateway.Proxy.UpstreamBody

namespace PccGateway
open Incremental Search

namespace Http1UpstreamCodec

/-- No piece of a body is longer than the limits of the codec allow. -/
structure Bounded (bound : Nat) (codec : Http1UpstreamCodec) (events : List UpstreamEvent) : Prop where
  body : codec.limits.maxBodyBytes ≤ bound
  chunk : codec.limits.maxChunkBytes ≤ bound
  remaining : codec.remaining ≤ bound
  pieces : ∀ data, .responseBody data ∈ events → data.length ≤ bound

namespace Bounded
variable {bound : Nat} {codec next : Http1UpstreamCodec} {past new : List UpstreamEvent}

theorem grows (held : Bounded bound codec past) (limits : next.limits = codec.limits)
    (remaining : next.remaining ≤ bound)
    (pieces : ∀ data, .responseBody data ∈ new → data.length ≤ bound) :
    Bounded bound next (past ++ new) := by
  refine ⟨limits ▸ held.body, limits ▸ held.chunk, remaining, fun data member => ?_⟩
  rcases List.mem_append.mp member with old | added
  · exact held.pieces data old
  · exact pieces data added

theorem step {complete : Bool} (held : Bounded bound codec past) (turn : Step codec next new complete) :
    Bounded bound next (past ++ new) := by
  have room := held.remaining
  have body := held.body
  have chunk := held.chunk
  cases turn with
  | @head block rest head state buffer delimited bytes parsed more =>
    obtain ⟨_, limits, _⟩ := Progress.enterBody_frame { codec with buffer := rest } head
    refine held.grows limits ?_ (by simp)
    have sound := (ParsedHead.sound ⟨block, parsed⟩).bound
    unfold enterBody
    split
    · exact room
    · split
      · exact room
      · split
        · exact room
        · split
          · simp only
            omega
          · exact room
  | headOnly => exact held.grows rfl room (by simp)
  | fixedPart _ _ short => exact held.grows rfl (by simp only; omega) (by simp; omega)
  | fixedLast _ _ same => exact held.grows rfl (Nat.zero_le _) (by simp; omega)
  | chunkSize => exact held.grows rfl (by simp only; omega) (by simp)
  | lastChunk => exact held.grows rfl room (by simp)
  | chunkPart _ _ short => exact held.grows rfl (by simp only; omega) (by simp; omega)
  | @chunkLast data rest _ _ buffer length =>
    refine held.grows rfl (Nat.zero_le _) ?_
    intro other member
    split at member
    · simp at member
    · simp only [List.mem_singleton, UpstreamEvent.responseBody.injEq] at member
      subst member
      omega
  | chunkCrlf => exact held.grows rfl room (by simp)
  | noTrailers => exact held.grows rfl room (by simp)
  | trailers => exact held.grows rfl room (by simp)
  | untilEof _ _ total => exact held.grows rfl room (by simp; omega)

theorem feed {data : Bytes} (held : Bounded bound codec past) (run : codec.feed data = (next, .ok new)) :
    Bounded bound next (past ++ new) := by
  unfold Http1UpstreamCodec.feed at run
  split at run
  · split at run
    · simp [raiseProxy] at run
    · cases run
      simpa using held
  · split at run
    · rename_i whole
      cases run
      refine Decoder.Steps.invariant (P := Bounded bound)
        (fun _ _ _ _ _ before turn => before.step (turn_eq_emit_iff.mp turn)) ?_
          (Decoder.feed_ok_steps whole)
      exact ⟨held.body, held.chunk, held.remaining, held.pieces⟩
    · simp at run

theorem eof (held : Bounded bound codec past) (run : codec.eof = (next, .ok new)) :
    Bounded bound next (past ++ new) := by
  unfold Http1UpstreamCodec.eof at run
  simp only at run
  split at run
  · cases run
    exact held.grows rfl held.remaining (by simp)
  · split at run
    · cases run
      exact held.grows rfl held.remaining (by simp)
    · simp [raiseProxy] at run

end Bounded

/-- What holds for the codec and its events after everything that has arrived. -/
theorem receive_invariant {bound : Nat} {codec last : Http1UpstreamCodec} {arrivals : List (Option Bytes)}
    {past events : List UpstreamEvent} (progress : Progress codec past) (bounded : Bounded bound codec past)
    (run : codec.receive arrivals = (last, .ok events)) :
    Progress last (past ++ events) ∧ Bounded bound last (past ++ events) ∧
      last.requestMethod = codec.requestMethod ∧ last.limits = codec.limits := by
  induction arrivals generalizing codec past events with
  | nil =>
    cases run
    simpa using ⟨progress, bounded⟩
  | cons arrival arrivals ih =>
    simp only [receive] at run
    split at run
    · cases run
    · rename_i next first firstRun
      split at run
      · cases run
      · rename_i rest restRun
        cases run
        have one : Progress next (past ++ first) ∧ Bounded bound next (past ++ first) ∧
            next.requestMethod = codec.requestMethod ∧ next.limits = codec.limits := by
          cases arrival with
          | some data =>
            obtain ⟨method, limits, _⟩ := feed_frame firstRun
            exact ⟨progress.feed firstRun, bounded.feed firstRun, method, limits⟩
          | none =>
            refine ⟨progress.eof firstRun, bounded.eof firstRun, ?_⟩
            simp only [Http1UpstreamCodec.eof] at firstRun
            split at firstRun
            · cases firstRun
              exact ⟨rfl, rfl⟩
            · split at firstRun <;> cases firstRun
              exact ⟨rfl, rfl⟩
        obtain ⟨later, laterBounded, method, limits⟩ := ih one.1 one.2.1 restRun
        refine ⟨by simpa using later, by simpa using laterBounded, method.trans one.2.2.1,
          limits.trans one.2.2.2⟩

end Http1UpstreamCodec

/-- The framing fields of a response. -/
def framingNames : List Text := ["content-length".toList, "transfer-encoding".toList]

/-- A head that the client decodes, against the head that the gateway decoded. -/
structure Carries (head received : UpstreamResponseHead) : Prop where
  status : received.status = head.status
  informational : received.informational = head.informational
  headers : received.headers.filter (fun header => header.1 ∉ framingNames) =
    (sanitizeHopByHop head.headers).filter fun header => header.1 ∉ framingNames

theorem downstreamHeaders_parsed {headers : List Header} (parsed : ∀ header ∈ headers, ParsedField header) :
    ProxyExchange.downstreamHeaders headers = (sanitizeHopByHop headers).filter fun header =>
      header.1 ∉ framingNames := by
  refine List.filter_congr fun header member => ?_
  have lowered : lower header.1 = header.1 :=
    congrArg Prod.fst (sanitizeHopByHop_subset parsed header member).wire.2
  rw [lowered]
  rfl

/-- The fields of a forwarded head are read back as they are, and do not frame the message. -/
theorem downstreamHeaders_plain {headers : List Header} (parsed : ∀ header ∈ headers, ParsedField header) :
    (ProxyExchange.downstreamHeaders headers).map readField = ProxyExchange.downstreamHeaders headers := by
  refine (List.map_congr_left fun header member => ?_).trans (List.map_id _)
  exact (sanitizeHopByHop_subset parsed header (List.mem_filter.mp member).1).wire.2

theorem readFraming_named (contentLength : Int) (chunked : Bool) :
    (Http1ResponseEncoder.readFraming contentLength chunked).filter
    (fun header => header.1 ∉ framingNames) = [] := by
  unfold Http1ResponseEncoder.readFraming
  split <;> cases chunked <;> rfl

/-- A head that the encoder wrote for a forwarded head is decoded, whatever stands behind it. -/
theorem forwardedHead_block {method : Text} {limits receiver : BodyLimits} {head : UpstreamResponseHead}
    (sound : SoundHead method limits head) {contentLength : Int} {chunked : Bool} {data : Bytes}
    (encodes : Http1ResponseEncoder.head head.status (ProxyExchange.downstreamHeaders head.headers)
      contentLength chunked = .ok data)
    (length : contentLength = -1 ∨ contentLength = head.contentLength)
    (bound : head.contentLength ≤ receiver.maxBodyBytes)
    (admits : receiver.Admits data.length) :
    ∃ block received, data = block ++ doubleCrlf ∧ Delimited doubleCrlf block ∧
      ((block.length + 4 : Nat) : Int) ≤ receiver.maxHeaderBytes ∧
      parseResponseHead method receiver block = .ok received ∧ Carries head received ∧
      received.bodyExpected = head.bodyExpected ∧ received.contentLength = contentLength ∧
      received.chunked = chunked := by
  have plain := downstreamHeaders_plain sound.fields
  have known := sound.known
  have room := admits.bodyBytes
  have short : (decimal contentLength.toNat).length ≤ 4300 := by
    rcases length with rfl | rfl
    · decide
    · exact sound.short
  obtain ⟨block, dataEq, delimited, bytes, parsed⟩ :=
    Http1ResponseEncoder.head_block encodes sound.range sound.supported
    plain (by omega) short (by omega) admits
  refine ⟨block, _, dataEq, delimited, bytes, parsed, ⟨rfl, sound.informational.symm, ?_⟩,
    sound.bodyExpected.symm, rfl, rfl⟩
  have kept : (ProxyExchange.downstreamHeaders head.headers).filter
      (fun header => header.1 ∉ framingNames) = ProxyExchange.downstreamHeaders head.headers := by
    rw [downstreamHeaders_parsed sound.fields, List.filter_filter]
    simp
  simp only [responseHead]
  rw [List.filter_append, readFraming_named, List.append_nil, kept, downstreamHeaders_parsed sound.fields]

namespace FramedResponse
variable {limits : BodyLimits} {head : UpstreamResponseHead} {data : Bytes} {trailers : List Header}

theorem delivered (framed : FramedResponse limits head data trailers) (expected : head.bodyExpected = true)
    (unknown : head.contentLength < 0) : DeliveredTrailers limits trailers := by
  cases framed with
  | empty bare => rcases bare with off | zero <;> simp_all
  | fixed _ _ total => omega
  | chunked _ _ delivered => exact delivered
  | untilEof => exact ⟨[], [], rfl, by decide, rfl⟩

theorem no_data (framed : FramedResponse limits head data trailers)
    (coded : head.chunked = true → head.contentLength = -1)
    (bare : head.bodyExpected = false ∨ head.contentLength = 0) : data = [] ∧ trailers = [] := by
  cases framed with
  | empty => exact ⟨rfl, rfl⟩
  | fixed expected _ total =>
    have zero : head.contentLength = 0 := by simpa [expected] using bare
    exact ⟨List.eq_nil_of_length_eq_zero (by omega), rfl⟩
  | chunked expected chunked =>
    have zero : head.contentLength = 0 := by simpa [expected] using bare
    have := coded chunked
    omega
  | untilEof expected _ negative =>
    have zero : head.contentLength = 0 := by simpa [expected] using bare
    omega

theorem whole_length (framed : FramedResponse limits head data trailers)
    (coded : head.chunked = true → head.contentLength = -1) (expected : head.bodyExpected = true)
    (positive : 0 < head.contentLength) : (data.length : Int) = head.contentLength ∧ trailers = [] := by
  cases framed with
  | empty bare =>
    have zero : head.contentLength = 0 := by simpa [expected] using bare
    omega
  | fixed _ _ total => exact ⟨total, rfl⟩
  | chunked _ chunked =>
    have := coded chunked
    omega
  | untilEof _ _ negative => omega

end FramedResponse

namespace ProxyExchange
open Http1UpstreamCodec

/-- The informational heads that reach the client. -/
def passes (expectContinueHandled : Bool) (head : UpstreamResponseHead) : Bool :=
  ¬ (head.status = 100 ∧ expectContinueHandled)

/-- Forwarded informational heads are decoded one after another. -/
theorem informational_steps {method : Text} {limits : BodyLimits} {receiver : UpstreamLimits}
    {expectContinueHandled chunked next : Bool} {heads : List UpstreamResponseHead} {wire rest : Bytes}
    (sound : ∀ head ∈ heads, head.informational = true ∧ SoundHead method limits head)
    (bound : ∀ head ∈ heads, head.contentLength ≤ receiver.maxBodyBytes)
    (translated : Translates method expectContinueHandled chunked (heads.map .responseHead) next wire)
    (admits : receiver.Admits wire.length) :
    next = chunked ∧ ∃ received,
    decoder.Steps { requestMethod := method, limits := receiver, buffer := wire ++ rest }
        { requestMethod := method, limits := receiver, buffer := rest } (received.map .responseHead) ∧
      List.Forall₂ Carries (heads.filter (passes expectContinueHandled)) received := by
  induction heads generalizing chunked wire with
  | nil =>
    cases translated
    exact ⟨rfl, [], .refl _, .nil⟩
  | cons head heads ih =>
    cases translated with
    | @cons _ middle _ _ _ data more one later =>
      obtain ⟨informational, headSound⟩ := sound head (by simp)
      have tailSound := fun other member => sound other (List.mem_cons_of_mem head member)
      have tailBound := fun other member => bound other (List.mem_cons_of_mem head member)
      have tailAdmits : receiver.Admits more.length := admits.mono (by rw [List.length_append]; omega)
      simp only [eventWire, informational, if_true] at one
      split at one
      · rename_i suppressed
        cases one
        obtain ⟨same, received, steps, carried⟩ := ih tailSound tailBound later tailAdmits
        refine ⟨same, received, by simpa using steps, ?_⟩
        rwa [List.filter_cons_of_neg (by simp [passes, suppressed])]
      · rename_i passed
        obtain ⟨_, encodes, result⟩ := bind_eq_ok.mp one
        cases result
        obtain ⟨same, received, steps, carried⟩ := ih tailSound tailBound later tailAdmits
        obtain ⟨block, first, dataEq, delimited, bytes, parsed, carries, _⟩ :=
          forwardedHead_block headSound encodes
          (.inl rfl) (bound head (by simp)) (admits.mono (by rw [List.length_append]; omega))
        refine ⟨same, first :: received, ?_, ?_⟩
        · have entered : enterBody
              { requestMethod := method, limits := receiver, buffer := more ++ rest } first =
              { requestMethod := method, limits := receiver, buffer := more ++ rest } := by
            simp [enterBody, carries.informational, informational]
          have step := @Step.head
            { requestMethod := method, limits := receiver, buffer := data ++ more ++ rest } block
            (more ++ rest) first rfl (by simp [dataEq]) delimited bytes parsed (by simp [entered])
          rw [entered] at step
          exact step.steps.trans steps
        · rw [List.filter_cons_of_pos (by simp only [passes, passed, not_false_eq_true, decide_true])]
          exact .cons carries carried

theorem pieces_translated {method : Text} {expectContinueHandled chunked next : Bool}
    {pieces : List Bytes} {wire : Bytes}
    (translated : Translates method expectContinueHandled chunked (pieces.map .responseBody) next wire) :
    next = chunked ∧ wire = bodyWire chunked pieces := by
  induction pieces generalizing wire with
  | nil =>
    cases translated
    exact ⟨rfl, by cases chunked <;> rfl⟩
  | cons piece pieces ih =>
    cases translated with
    | cons one later =>
      cases one
      obtain ⟨rfl, rfl⟩ := ih later
      refine ⟨rfl, ?_⟩
      rw [show piece :: pieces = [piece] ++ pieces from rfl, bodyWire_append]
      congr 1
      cases next <;> simp [bodyWire]

/-- A sanitised list names nothing in `Connection`, so it is sanitised once and for all. -/
theorem sanitizeHopByHop_idem {headers : List Header} (parsed : ∀ header ∈ headers, ParsedField header) :
    sanitizeHopByHop (sanitizeHopByHop headers) = sanitizeHopByHop headers := by
  have inside := sanitizeHopByHop_subset parsed
  have shape := sanitizeHopByHop_parsed parsed
  have free : ∀ header ∈ sanitizeHopByHop headers, header.1 ∉ hopByHop := by
    intro header member
    rw [shape] at member
    have kept := (List.mem_filter.mp member).2
    simp only [decide_eq_true_eq] at kept
    exact kept.1
  have noConnection : connectionNamedFields (sanitizeHopByHop headers) = [] := by
    have none : (sanitizeHopByHop headers).filter
        (fun header => lower header.1 = "connection".toList) = [] := by
      refine List.filter_eq_nil_iff.mpr fun header member same => free header member ?_
      have lowered : lower header.1 = header.1 := congrArg Prod.fst (inside header member).wire.2
      rw [decide_eq_true_eq, lowered] at same
      rw [same]
      simp [hopByHop]
    rw [connectionNamedFields, none]
    rfl
  rw [sanitizeHopByHop_parsed inside, noConnection]
  refine List.filter_eq_self.mpr fun header member => ?_
  simpa using free header member

theorem endChunks_eq_ok {trailers : List Header} {data : Bytes}
    (run : Http1ResponseEncoder.endChunks trailers = .ok data) :
    data = ascii "0" ++ crlf ++ fieldSection trailers ++ crlf ∧ (∀ header ∈ trailers, WireField header) ∧
      ∀ header ∈ trailers, lower header.1 ∉ Http1UpstreamCodec.forbiddenTrailers.map String.toList := by
  obtain ⟨lines, linesRun, result⟩ := bind_eq_ok.mp run
  obtain ⟨rfl, valid⟩ := Http1ResponseEncoder.fields_eq_ok linesRun
  cases result
  refine ⟨rfl, fun header member => (valid header member).1, fun header member listed =>
    (valid header member).2 ?_⟩
  simp only [Http1UpstreamCodec.forbiddenTrailers, List.map_cons, List.map_nil, List.mem_cons,
    List.not_mem_nil, or_false] at listed ⊢
  tauto

/-- A body that the encoder wrote in chunks is decoded to its bytes and its trailers. -/
theorem encodedBody_steps {limits : BodyLimits} {receiver : UpstreamLimits} {method : Text}
    {pieces : List Bytes}
    {trailers : List Header} {ending : Bytes} (sized : ∀ piece ∈ pieces, piece.length < 2 ^ 63)
    (delivered : DeliveredTrailers limits trailers)
    (ends : Http1ResponseEncoder.endChunks trailers = .ok ending)
    (admits : receiver.Admits (bodyWire true pieces ++ ending).length) :
    ∃ (last : Http1UpstreamCodec) (received : List Bytes), decoder.Steps
        { requestMethod := method, limits := receiver, state := .chunkSize,
          buffer := bodyWire true pieces ++ ending } last
        (received.map .responseBody ++ [.responseEnd trailers]) ∧
      last.state = .complete ∧ last.complete = true ∧ last.buffer = [] ∧ received.flatten =
        pieces.flatten := by
  obtain ⟨lines, raw, rawRun, _, rfl⟩ := delivered
  have rawParsed := parseHeaders_fields rawRun
  have parsed := sanitizeHopByHop_subset rawParsed
  obtain ⟨rfl, valid, allowed⟩ := endChunks_eq_ok ends
  have same : (sanitizeHopByHop raw).map readField = sanitizeHopByHop raw :=
    (List.map_congr_left fun header member => (parsed header member).wire.2).trans (List.map_id _)
  have wire : bodyWire true pieces ++ (ascii "0" ++ crlf ++ fieldSection (sanitizeHopByHop raw) ++ crlf) =
      (encodedBody pieces (sanitizeHopByHop raw)).wire := (encodedBody_wire _ _).symm
  rw [wire] at admits ⊢
  have absent : Http1UpstreamCodec.forbiddenTrailers.any
      (hasField (encodedBody pieces (sanitizeHopByHop raw)).trailers) = false := by
    change Http1UpstreamCodec.forbiddenTrailers.any
      (hasField ((sanitizeHopByHop raw).map readField)) = false
    rw [same]
    refine any_hasField_eq_false fun header member listed => allowed header member ?_
    rwa [show lower header.1 = header.1 from congrArg Prod.fst (parsed header member).wire.2]
  obtain ⟨last, steps, state, complete, buffer⟩ := @body_steps
    { requestMethod := method, limits := receiver, state := .chunkSize,
      buffer := (encodedBody pieces (sanitizeHopByHop raw)).wire }
    (encodedBody pieces (sanitizeHopByHop raw)) rfl rfl
    (by simpa [BodyLimits.after] using encodedBody_valid sized valid admits) absent
  refine ⟨last, (encodedBody pieces (sanitizeHopByHop raw)).chunks.map Chunk.data, ?_, state,
    complete, buffer, encodedBody_data _ _⟩
  have trailersEq : sanitizeHopByHop (encodedBody pieces (sanitizeHopByHop raw)).trailers =
      sanitizeHopByHop raw := by
    change sanitizeHopByHop ((sanitizeHopByHop raw).map readField) = sanitizeHopByHop raw
    rw [same, sanitizeHopByHop_idem rawParsed]
  rw [trailersEq] at steps
  simpa [Function.comp_def] using steps

/-- A head block of the client's codec, with what it parses to. -/
structure ReceivedBlock (method : Text) (receiver : UpstreamLimits) (block : Bytes)
    (received : UpstreamResponseHead) :
    Prop where
  delimited : Delimited doubleCrlf block
  bytes : ((block.length + 4 : Nat) : Int) ≤ receiver.maxHeaderBytes
  parsed : parseResponseHead method receiver.toBodyLimits block = .ok received
  final : received.informational = false

theorem empty_steps {method : Text} {receiver : UpstreamLimits} {block : Bytes}
    {received : UpstreamResponseHead} (head : ReceivedBlock method receiver block received)
    (bare : received.bodyExpected = false ∨ received.contentLength = 0) :
    decoder.Steps { requestMethod := method, limits := receiver, buffer := block ++ doubleCrlf }
      (finished { requestMethod := method, limits := receiver, buffer := block ++ doubleCrlf })
      [.responseHead received, .responseEnd []] := by
  have entered : (enterBody { requestMethod := method, limits := receiver, buffer := [] }
      received).state = .finalEmpty := by
    simp [enterBody, head.final, bare]
  exact (@Step.headOnly { requestMethod := method, limits := receiver, buffer := block ++ doubleCrlf }
    block received rfl rfl
    head.delimited head.bytes head.parsed entered).steps

theorem fixed_steps {method : Text} {receiver : UpstreamLimits} {block data : Bytes}
    {received : UpstreamResponseHead}
    (head : ReceivedBlock method receiver block received) (expected : received.bodyExpected = true)
    (plain : received.chunked = false) (length : (data.length : Int) = received.contentLength)
    (nonempty : data ≠ []) :
    ∃ done : Http1UpstreamCodec, decoder.Steps
        { requestMethod := method, limits := receiver, buffer := block ++ doubleCrlf ++ data } done
        [.responseHead received, .responseBody data, .responseEnd []] ∧
      done.state = .complete ∧ done.complete = true ∧ done.buffer = [] := by
  have positive := List.length_pos_iff.mpr nonempty
  have entered : enterBody { requestMethod := method, limits := receiver, buffer := data } received =
      { requestMethod := method, limits := receiver, buffer := data, state := .fixedBody,
        remaining := data.length } := by
    simp [enterBody, head.final, expected, plain, ← length, nonempty]
  have first := @Step.head
    { requestMethod := method, limits := receiver, buffer := block ++ doubleCrlf ++ data } block data
    received rfl rfl head.delimited head.bytes head.parsed (by simp [entered])
  simp only [entered] at first
  have last := @Step.fixedLast
    { requestMethod := method, limits := receiver, buffer := data, state := .fixedBody,
      remaining := data.length } rfl nonempty rfl
  exact ⟨_, first.steps.trans last.steps, rfl, rfl, rfl⟩

theorem streamed_steps {limits : BodyLimits} {method : Text} {receiver : UpstreamLimits} {block : Bytes}
    {received : UpstreamResponseHead} (head : ReceivedBlock method receiver block received)
    (expected : received.bodyExpected = true) (coded : received.chunked = true)
    (unknown : received.contentLength = -1)
    {pieces : List Bytes} {trailers : List Header} {ending : Bytes}
    (sized : ∀ piece ∈ pieces, piece.length < 2 ^ 63)
    (delivered : DeliveredTrailers limits trailers)
    (ends : Http1ResponseEncoder.endChunks trailers = .ok ending)
    (admits : receiver.Admits (bodyWire true pieces ++ ending).length) :
    ∃ (done : Http1UpstreamCodec) (data : List Bytes), decoder.Steps
        { requestMethod := method, limits := receiver, buffer := block ++ doubleCrlf ++
          (bodyWire true pieces ++ ending) }
        done (.responseHead received :: (data.map .responseBody ++ [.responseEnd trailers])) ∧
      done.state = .complete ∧ done.complete = true ∧ done.buffer = [] ∧ data.flatten = pieces.flatten := by
  obtain ⟨done, data, steps, ended⟩ := @encodedBody_steps limits receiver method pieces trailers
    ending sized delivered ends
    admits
  refine ⟨done, data, ?_, ended⟩
  have entered : enterBody
      { requestMethod := method, limits := receiver, buffer := bodyWire true pieces ++ ending }
      received = { requestMethod := method, limits := receiver, state := .chunkSize
                   buffer := bodyWire true pieces ++ ending } := by
    simp [enterBody, head.final, expected, coded, unknown]
  have first := @Step.head
    { requestMethod := method, limits := receiver,
      buffer := block ++ doubleCrlf ++ (bodyWire true pieces ++ ending) } block
    (bodyWire true pieces ++ ending) received rfl rfl head.delimited head.bytes head.parsed
      (by simp [entered])
  simp only [entered] at first
  exact first.steps.trans steps

/-- The final head and the body behind it. -/
theorem final_steps {method : Text} {limits : BodyLimits} {receiver : UpstreamLimits}
    {expectContinueHandled chunked last : Bool}
    {head : UpstreamResponseHead} {pieces : List Bytes} {trailers : List Header} {wire : Bytes}
    (final : head.informational = false) (sound : SoundHead method limits head)
    (framed : FramedResponse limits head pieces.flatten trailers)
    (sized : ∀ piece ∈ pieces, piece.length < 2 ^ 63)
    (bound : head.contentLength ≤ receiver.maxBodyBytes)
    (translated : Translates method expectContinueHandled chunked
      (.responseHead head :: (pieces.map .responseBody ++ [.responseEnd trailers])) last wire)
    (admits : receiver.Admits wire.length) :
    ∃ (done : Http1UpstreamCodec) (received : UpstreamResponseHead) (delivered : List Bytes), decoder.Steps
        { requestMethod := method, limits := receiver, buffer := wire } done
        (.responseHead received :: (delivered.map .responseBody ++ [.responseEnd trailers])) ∧
      done.state = .complete ∧ done.complete = true ∧ done.buffer = [] ∧ Carries head received ∧
      delivered.flatten = pieces.flatten := by
  cases translated with
  | @cons _ coded _ _ _ headWire rest one later =>
  simp only [eventWire, final, Bool.false_eq_true, if_false, bind_eq_ok] at one
  obtain ⟨_, encodes, result⟩ := one
  cases result
  obtain ⟨middle, bodyData, ending, body, ends, rfl⟩ := later.append_inv
  obtain ⟨rfl, rfl⟩ := pieces_translated body
  cases ends with
  | @cons _ _ _ _ _ endData nothing endEvent endNil =>
  cases endNil
  have known := sound.known
  by_cases streams : head.bodyExpected = true ∧ head.contentLength < 0
  · -- an unknown length: chunks, whether the upstream sent chunks or closed the connection
    have flag : (head.bodyExpected && decide (head.contentLength < 0)) = true := by simpa using streams
    simp only [flag, if_true, eventWire, bind_eq_ok] at encodes endEvent admits ⊢
    obtain ⟨_, endRun, result⟩ := endEvent
    cases result
    obtain ⟨block, received, rfl, delimited, bytes, parsed, carries, expected, length, codedEq⟩ :=
      forwardedHead_block sound encodes (.inl rfl) bound
        (admits.mono (by simp only [List.length_append]; omega))
    obtain ⟨done, data, steps, state, complete, buffer, same⟩ := streamed_steps
      ⟨delimited, bytes, parsed, carries.informational.trans final⟩ (expected.trans streams.1) codedEq
        length sized
      (framed.delivered streams.1 streams.2) endRun (admits.mono (by simp only [List.length_append]; omega))
    exact ⟨done, received, data, by simpa using steps, state, complete, buffer, carries, same⟩
  · have flag : (head.bodyExpected && decide (head.contentLength < 0)) = false := by
      simpa using streams
    simp only [flag, Bool.false_eq_true, if_false, eventWire, bodyWire] at encodes endEvent admits ⊢
    cases endEvent
    by_cases bare : head.bodyExpected = false ∨ head.contentLength = 0
    · obtain ⟨noData, rfl⟩ := framed.no_data sound.coded bare
      have length : (if head.bodyExpected = false ∧ method ≠ "HEAD".toList ∧ head.status ≠ 304 then -1
          else head.contentLength) = -1 ∨
            (if head.bodyExpected = false ∧ method ≠ "HEAD".toList ∧ head.status ≠ 304
          then -1 else head.contentLength) = head.contentLength := by
        split <;> simp
      obtain ⟨block, received, rfl, delimited, bytes, parsed, carries, expected, lengthEq, _⟩ :=
        forwardedHead_block sound encodes length bound
          (admits.mono (by simp only [List.length_append]; omega))
      have receivedBare : received.bodyExpected = false ∨ received.contentLength = 0 := by
        rw [expected, lengthEq]
        by_cases off : head.bodyExpected = false
        · exact .inl off
        · exact .inr (by rw [if_neg (by simp [off])]; simpa [off] using bare)
      refine ⟨finished { requestMethod := method, limits := receiver, buffer := block ++ doubleCrlf },
        received, [], ?_, rfl, rfl, rfl, carries, by simp [noData]⟩
      simpa [noData] using empty_steps ⟨delimited, bytes, parsed, carries.informational.trans final⟩
        receivedBare
    · simp only [not_or, Bool.not_eq_false] at bare
      have positive : 0 < head.contentLength := by
        have : ¬ head.contentLength < 0 := fun negative => streams ⟨bare.1, negative⟩
        omega
      obtain ⟨total, rfl⟩ := framed.whole_length sound.coded bare.1 positive
      rw [if_neg (by simp [bare.1])] at encodes
      obtain ⟨block, received, rfl, delimited, bytes, parsed, carries, expected, lengthEq, plain⟩ :=
        forwardedHead_block sound encodes (.inr rfl) bound
          (admits.mono (by simp only [List.length_append]; omega))
      have filled : pieces.flatten ≠ [] := List.length_pos_iff.mp (by omega)
      obtain ⟨done, steps, state, complete, buffer⟩ := fixed_steps
        ⟨delimited, bytes, parsed, carries.informational.trans final⟩ (expected.trans bare.1) plain
        (total.trans lengthEq.symm) filled
      exact ⟨done, received, [pieces.flatten], by simpa using steps, state, complete, buffer,
        carries, by simp⟩

theorem upper_upper (text : Text) : upper (upper text) = upper text := by
  rw [upper, upper, List.map_map]
  refine List.map_congr_left fun c _ => ?_
  have shape : (upperChar c).toNat = if 97 ≤ c.toNat ∧ c.toNat ≤ 122 then c.toNat - 32 else c.toNat := by
    unfold upperChar
    split
    · exact toNat_ofNat (by omega)
    · rfl
  simp only [Function.comp_apply]
  rw [upperChar, if_neg]
  split at shape <;> omega

/-- A new exchange has decoded nothing and sent nothing to the client. -/
theorem init_relayed {request : ExchangeRequest} {limits : ExchangeLimits} {accounting : Option Ledger}
    {exchange : ProxyExchange} (start : init request limits accounting = .ok exchange) :
    Relayed request [] [] exchange [] := by
  obtain ⟨low, high, buffer, wire, transition, made, -, appended⟩ := init_eq_ok start
  obtain ⟨valid, empty⟩ := ChannelBuffer.init_wellFormed made
  have initial : Relayed request [] [] (unsent request accounting buffer) [] := by
    refine ⟨valid, rfl, rfl, rfl, ?_⟩
    rw [unsent, show buffer.contents = [] from empty]
    exact .nil false
  refine initial.frame ?_
  have kept := congrArg (fun result => result.1.responseSide) appended
  exact kept.symm.trans (appendUpstream_leaves wire false _)

/-- The events are one response, and `wire` is that response for a client: a fresh codec for the same method
decodes it completely, with the same status, the sanitised fields, the same body and trailers, and the
informational heads that pass in their order before it. -/
def ArrivesAs (request : ExchangeRequest) (events : List UpstreamEvent) (wire : Bytes) : Prop :=
  ∃ (informational : List UpstreamResponseHead) (head : UpstreamResponseHead) (pieces : List Bytes)
    (trailers : List Header), events = informational.map .responseHead ++
      .responseHead head :: (pieces.map .responseBody ++ [.responseEnd trailers]) ∧
    ∃ enough : Nat, ∀ receiver : UpstreamLimits, receiver.Admits enough →
      ∃ (done : Http1UpstreamCodec) (before : List UpstreamResponseHead) (received : UpstreamResponseHead)
        (delivered : List Bytes),
        feed { requestMethod := upper request.method, limits := receiver } wire =
          (done, .ok (before.map .responseHead ++ .responseHead received ::
            (delivered.map .responseBody ++ [.responseEnd trailers]))) ∧
        done.complete = true ∧ done.buffer = [] ∧ Carries head received ∧ delivered.flatten =
          pieces.flatten ∧
        List.Forall₂ Carries (informational.filter (passes request.expectContinueHandled)) before

/-- A response that the codec decoded as complete reaches the client with the same meaning, however
its bytes were cut and whatever was sent and taken in between. What is assumed is that nothing has
raised, that the codec calls the response complete, and that all of it has been taken from the
queue. Nothing is assumed about the upstream but that the codec accepts what it sends, nor about the
request side and the accounting. -/
theorem proxy_response_preserved (request : ExchangeRequest) (bounds : ExchangeLimits)
    (accounting : Option Ledger)
    (ops : List Op) (sent : Transmission) (run : transmit request bounds accounting ops = .ok sent)
    (codec : Http1UpstreamCodec) (events : List UpstreamEvent)
    (accepted : receive { requestMethod := upper request.method, limits := {} } (ops.filterMap Op.arrival) =
      (codec, .ok events)) (complete : codec.complete = true) (drained : sent.queuedDownstream = 0) :
    ArrivesAs request events sent.downstream := by
  obtain ⟨exchange, last, start, performed, _, queued⟩ := transmit_eq_ok run
  obtain ⟨new, relayed⟩ := (init_relayed start).performAll performed
  rw [List.nil_append, List.nil_append, List.nil_append] at relayed
  have received := relayed.received
  rw [upper_upper] at received
  have same := received.symm.trans accepted
  simp only [Prod.mk.injEq, Except.ok.injEq] at same
  obtain ⟨sameCodec, rfl⟩ := same
  have empty : last.toDownstream.contents = [] :=
    List.eq_nil_of_length_eq_zero (relayed.wellFormed.queued ▸ queued.symm.trans drained)
  have translated := relayed.translated
  rw [empty, List.append_nil] at translated
  have chunkLimit : (1048576 : Int) ≤ 16777216 := by decide
  obtain ⟨progress, bounded, method, limits⟩ := @receive_invariant 16777216
    { requestMethod := upper request.method, limits := {} } codec _ [] new
    (@Progress.heads _ [] rfl rfl rfl (by simp))
      ⟨Int.le_refl _, chunkLimit, Nat.zero_le _, by simp⟩ accepted
  rw [List.nil_append] at progress bounded
  cases progress with
  | heads _ unfinished => simp [complete] at unfinished
  | body unfinished => simp [complete] at unfinished
  | @done informational head pieces trailers _ _ infos final parsed framed filled =>
  rw [method, limits] at infos parsed
  rw [limits] at framed
  refine ⟨informational, head, pieces, trailers, rfl, max sent.downstream.length 16777216, ?_⟩
  intro receiver admits
  obtain ⟨flag, first, rest, front, back, wire⟩ := translated.append_inv
  have sized : ∀ piece ∈ pieces, piece.length < 2 ^ 63 := by
    intro piece member
    have := bounded.pieces piece (by simp [member])
    omega
  have room := admits.bodyBytes
  have lengths {other : UpstreamResponseHead}
      (sound : SoundHead (upper request.method) (({} : UpstreamLimits)).toBodyLimits other) :
      other.contentLength ≤ receiver.maxBodyBytes := by
    have known := sound.known
    have small := sound.bound
    simp only at small
    omega
  have total : sent.downstream.length = first.length + rest.length := by rw [wire, List.length_append]
  obtain ⟨done, head', delivered, steps, state, completed, buffer, carries, data⟩ :=
    @final_steps (upper request.method) _
    receiver _ _ _ _ _ _ _ final parsed.sound framed sized (lengths parsed.sound) back
      (admits.mono (by omega))
  obtain ⟨_, before, infoSteps, carried⟩ := @informational_steps _ _ receiver _ _ _ _ _ rest
    (fun other member => ⟨(infos other member).1, (infos other member).2.sound⟩)
    (fun other member => lengths (infos other member).2.sound) front (admits.mono (by omega))
  refine ⟨done, before, head', delivered, ?_, completed, buffer, carries, data, carried⟩
  refine (Http1UpstreamCodec.feed_eq_ok_iff rfl rfl).mpr ⟨?_, by simp [turn, state]⟩
  rw [wire]
  exact infoSteps.trans steps

/-- Early hints and a response of HTTP/1.0 that ends with its connection. -/
theorem proxy_response_preserved_untilEof :
    let request : ExchangeRequest := {
      method := "GET".toList, target := "/".toList, upstreamAuthority := "b".toList
      headers := [("host".toList, "a".toList)]
      clientIp := "c".toList, scheme := "s".toList, originalHost := "a".toList }
    let ops : List Op := [.feedUpstream
      (ascii "HTTP/1.1 103 \r\nl: x\r\n\r\nHTTP/1.0 200 \r\nk: v\r\n\r\nh"),
      .feedUpstream [105], .upstreamEof, .takeDownstream (-1)]
    let events : List UpstreamEvent :=
      [.responseHead ⟨103, [], .http11, [("l".toList, "x".toList)], -1, false, true, true, false⟩,
        .responseHead ⟨200, [], .http10, [("k".toList, "v".toList)], -1, false, false, false, true⟩,
        .responseBody [104], .responseBody [105], .responseEnd []]
    let wire := ascii
      ("HTTP/1.1 103 \r\nl: x\r\n\r\nHTTP/1.1 200 OK\r\nk: v\r\nTransfer-Encoding: chunked\r\n\r\n" ++
      "1\r\nh\r\n1\r\ni\r\n0\r\n\r\n")
    transmit request {} none ops = .ok ⟨[], wire, 109, 0⟩ ∧ ArrivesAs request events wire := by
  intro request ops events wire
  have run : transmit request {} none ops = .ok ⟨[], wire, 109, 0⟩ := by
    simp only [ops, wire]
    rw [ascii_append, ascii_ofList, ascii_ofList, ascii_ofList]
    decide +kernel
  have accepted : receive { requestMethod := upper request.method, limits := {} }
      (ops.filterMap Op.arrival) =
      ({ requestMethod := "GET".toList, limits := {}, state := .complete, complete := true, closed := true
         bodyReceived := 2 }, .ok events) := by
    simp only [ops]
    rw [ascii_ofList]
    decide
  exact ⟨run, proxy_response_preserved request {} none ops ⟨[], wire, 109, 0⟩ run _ events accepted rfl rfl⟩

end ProxyExchange
end PccGateway
