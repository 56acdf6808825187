import PccGateway.Proxy.RequestWire

namespace PccGateway

/-- The pieces in which a body was delivered. -/
def MessageBody.pieces : MessageBody → List Bytes
  | .fixed pieces => pieces
  | .chunked body => body.chunks.map Chunk.data

theorem MessageBody.events_eq (body : MessageBody) :
    body.events = body.pieces.map .bodyChunk ++ [.requestEnd body.trailers] := by
  cases body <;> simp [events, pieces, trailers]

theorem bodyEvents_inj {first second : List Bytes} {a b : List Header} {more rest : List Event}
    (same : first.map Event.bodyChunk ++ .requestEnd a :: more = second.map Event.bodyChunk ++
      .requestEnd b :: rest) :
    first = second ∧ a = b := by
  induction first generalizing second with
  | nil =>
    cases second with
    | nil => simpa using And.left (List.cons.inj same |>.imp_left Event.requestEnd.inj)
    | cons piece second => simp at same
  | cons piece first ih =>
    cases second with
    | nil => simp at same
    | cons other second =>
      simp only [List.map_cons, List.cons_append, List.cons.injEq, Event.bodyChunk.injEq] at same
      obtain ⟨rfl, later⟩ := same
      obtain ⟨rfl, rfl⟩ := ih later
      exact ⟨rfl, rfl⟩

/-- A head, pieces and an end that follow each other among the events of messages are one of the
messages. -/
theorem message_of_events {messages : List Message} {past before after : List Event} {head : RequestHead}
    {pieces : List Bytes} {trailers : List Header} (unfinished : ∀ trailers, .requestEnd trailers ∉ past)
    (same : (messages.map Message.events).flatten ++ past =
      before ++ .requestHead head :: (pieces.map .bodyChunk ++ .requestEnd trailers :: after)) :
    ∃ message ∈ messages, message.head = head ∧ message.body.pieces = pieces ∧ message.body.trailers =
      trailers := by
  induction messages generalizing before with
  | nil =>
    refine absurd ?_ (unfinished trailers)
    rw [List.map_nil, List.flatten_nil, List.nil_append] at same
    simp [same]
  | cons message messages ih =>
    rw [List.map_cons, List.flatten_cons, Message.events, message.body.events_eq] at same
    cases before with
    | nil =>
      simp only [List.nil_append, List.cons_append, List.append_assoc, List.cons.injEq,
        Event.requestHead.injEq] at same
      obtain ⟨rfl, rest⟩ := same
      obtain ⟨rfl, rfl⟩ := bodyEvents_inj rest
      exact ⟨message, by simp, rfl, rfl, rfl⟩
    | cons event before =>
      -- no head is among the body events, so the message ends before the head in question
      simp only [List.cons_append, List.append_assoc, List.cons.injEq] at same
      obtain ⟨_, rest⟩ := same
      have skip : ∃ later, (messages.map Message.events).flatten ++ past =
          later ++ .requestHead head :: (pieces.map .bodyChunk ++ .requestEnd trailers :: after) := by
        have joined : (message.body.pieces.map Event.bodyChunk ++ [.requestEnd message.body.trailers]) ++
            ((messages.map Message.events).flatten ++ past) =
            before ++ .requestHead head :: (pieces.map .bodyChunk ++ .requestEnd trailers :: after) := by
          simpa using rest
        rcases List.append_eq_append_iff.mp joined with ⟨middle, front, back⟩ | ⟨middle, front, back⟩
        · exact ⟨middle, back⟩
        · cases middle with
          | nil => exact ⟨[], by simpa using back.symm⟩
          | cons other middle =>
            simp only [List.cons_append, List.cons.injEq] at back
            obtain ⟨rfl, _⟩ := back
            have member : Event.requestHead head ∈
                message.body.pieces.map Event.bodyChunk ++ [.requestEnd message.body.trailers] := by
              rw [front]
              simp
            simp at member
      obtain ⟨later, laterEq⟩ := skip
      obtain ⟨found, listed, result⟩ := ih laterEq
      exact ⟨found, by simp [listed], result⟩

theorem TrailerSection.parsed {maxHeaderBytes maxHeaderCount : Int} {wire : Bytes} {trailers : List Header}
    (read : TrailerSection maxHeaderBytes maxHeaderCount wire trailers) :
    ∀ header ∈ trailers, ParsedField header := by
  cases read with
  | none => simp
  | fields _ _ _ run => exact parseHeaders_fields run

/-- What a decoded request went through. -/
theorem decoded_request {limits : CodecLimits} {calls : List (Bytes × Int)} {codec : Http1ServerCodec}
    {before after : List Event} {head : RequestHead} {pieces : List Bytes} {trailers : List Header}
    (run : Http1ServerCodec.feedAll { limits := limits } calls = (codec,
      .ok (before ++ .requestHead head :: (pieces.map .bodyChunk ++ .requestEnd trailers :: after)))) :
    (∃ block, parseRequestHead limits block = .ok head) ∧ (∀ header ∈ trailers, ParsedField header) ∧
      (head.chunked = false → trailers = []) := by
  have start : ∃ messages taken past, Decoded limits [] { limits := limits } [] messages taken past :=
    ⟨[], [], [], rfl, rfl, by simp, .idle rfl rfl rfl, rfl⟩
  obtain ⟨messages, taken, past, decoded⟩ := Decoded.feedAll start run
  have unfinished : ∀ trailers, Event.requestEnd trailers ∉ past := by
    intro trailers
    cases decoded.inProgress <;> simp
  obtain ⟨message, listed, rfl, rfl, rfl⟩ := message_of_events unfinished
    ((by simpa using decoded.events_eq.symm : (messages.map Message.events).flatten ++ past = _))
  obtain ⟨headBlock, framed⟩ := decoded.valid message listed
  refine ⟨⟨message.block, headBlock.parsed⟩, ?_⟩
  generalize message.body = body at framed
  cases framed with
  | fixed => exact ⟨by simp [MessageBody.trailers], fun _ => rfl⟩
  | chunked coded valid =>
    refine ⟨valid.trailers.parsed, fun plain => ?_⟩
    rw [coded] at plain
    cases plain

theorem requestTrailers_parsed {trailers : List Header} {lines : Bytes}
    (parsed : ∀ header ∈ trailers, ParsedField header)
    (run : ProxyExchange.requestTrailers trailers = .ok lines) : lines = fieldSection trailers ∧
      ∀ header ∈ trailers, header.1 ∉ Http1ServerCodec.forbiddenTrailers.map String.toList := by
  induction trailers generalizing lines with
  | nil =>
    cases run
    exact ⟨rfl, by simp⟩
  | cons header trailers ih =>
    have lowered : lower header.1 = header.1 := congrArg Prod.fst (parsed header (by simp)).wire.2
    simp only [ProxyExchange.requestTrailers, bind_eq_ok, ite_raiseProxy_eq_ok] at run
    obtain ⟨allowed, nameBytes, nameRun, valueBytes, valueRun, more, moreRun, result⟩ := run
    rw [lowered] at allowed nameRun
    obtain ⟨rfl, _⟩ := encoded_encodeAscii nameRun
    obtain ⟨rfl, _⟩ := encoded_encodeLatin1 valueRun
    obtain ⟨rfl, rest⟩ := ih (fun other member => parsed other (by simp [member])) moreRun
    cases result
    refine ⟨by simp [fieldSection, headerLine], ?_⟩
    intro other member
    rcases List.mem_cons.mp member with rfl | listed
    · exact allowed
    · exact rest other listed

namespace ProxyExchange

/-- A new exchange has the head of its request queued, and nothing else. -/
theorem init_sent {request : ExchangeRequest} {limits : ExchangeLimits} {accounting : Option Ledger}
    {exchange : ProxyExchange} (start : init request limits accounting = .ok exchange) :
    ∃ wire, Sent wire request.contentLength request.chunkedRequest [] none [] exchange ∧
      encodeProxyRequestHead (upper request.method) request.target request.headers request.upstreamAuthority
        request.clientIp request.scheme request.originalHost request.contentLength request.chunkedRequest
        request.trustForwarded request.expectContinueHandled = .ok wire := by
  obtain ⟨low, high, buffer, wire, transition, made, encodes, appended⟩ := init_eq_ok start
  have fresh := ChannelBuffer.init_wellFormed made
  obtain ⟨valid, contents, flags⟩ := appendUpstream_eq_ok (by exact fresh.1) appended
  refine ⟨wire, ⟨valid, flags, [], .unfinished, ?_⟩, encodes⟩
  rw [contents]
  simp [unsent, fresh.2, bodyWire]

/-- The fields of an exchange that are those of the request it forwards. The target may be another one. -/
structure Forwards (request : ExchangeRequest) (head : RequestHead) : Prop where
  method : request.method = head.method
  headers : request.headers = head.headers
  contentLength : request.contentLength = head.contentLength
  chunked : request.chunkedRequest = head.chunked

/-- The request that the upstream decodes, against the one that the gateway decoded. -/
structure Reaches (request : ExchangeRequest) (head received : RequestHead) : Prop where
  method : received.method = upper head.method
  target : received.target = request.target
  chunked : received.chunked = head.chunked
  contentLength : received.contentLength = head.contentLength
  host : fieldValues received.headers "host" = [request.upstreamAuthority]
  oneFraming : (fieldValues received.headers "content-length").length +
    (fieldValues received.headers "transfer-encoding").length = 1
  others : received.headers.filter (fun header => header.1 ∉ rewrittenNames) =
    (sanitizeHopByHop head.headers).filter fun header =>
      header.1 ∉ rewrittenNames ∧ ¬ (request.expectContinueHandled ∧ header.1 = "expect".toList)

theorem encodedHead_reaches {limits receiver : CodecLimits} {block : Bytes} {head : RequestHead}
    (decoded : parseRequestHead limits block = .ok head) {request : ExchangeRequest}
    (forwards : Forwards request head)
    (origin : request.target.head? = some '/') (trimmed : Trimmed isOws request.upstreamAuthority)
    {wire : Bytes}
    (encoded : encodeProxyRequestHead (upper request.method) request.target request.headers
      request.upstreamAuthority
      request.clientIp request.scheme request.originalHost request.contentLength request.chunkedRequest
      request.trustForwarded request.expectContinueHandled = .ok wire)
    (bound : head.contentLength ≤ receiver.maxBodyBytes) (admits : receiver.Admits wire.length) :
    ∃ received block, wire = block ++ doubleCrlf ∧ HeadBlock receiver block received ∧
      Reaches request head received := by
  have parts := encodeProxyRequestHead_eq_ok encoded
  rw [forwards.headers, forwards.method, forwards.contentLength, forwards.chunked] at parts
  obtain ⟨⟨expectContinue, unframed⟩, others⟩ :=
    proxyRequestHeaders_received decoded trimmed request.clientIp
    request.scheme request.originalHost request.trustForwarded request.expectContinueHandled
  obtain ⟨short, coded⟩ := parseRequestHead_length decoded
  obtain ⟨block, wireEq, headBlock⟩ := parts.headBlock origin unframed short bound admits
  obtain ⟨lengthField, codingField, noHost, _⟩ := fieldValues_framingField head.contentLength head.chunked
  refine ⟨_, block, wireEq, headBlock, ⟨rfl, rfl, rfl, ?_, ?_, ?_, ?_⟩⟩
  · simp only [receivedHead]
    split
    · rename_i chunked
      exact (coded chunked).symm
    · rfl
  · simp only [receivedHead, fieldValues_append, unframed.host, noHost, List.append_nil]
  · simp only [receivedHead, fieldValues_append, unframed.noLength, unframed.noCoding, lengthField,
      codingField, List.nil_append]
    cases head.chunked <;> rfl
  · have framing : [framingField head.contentLength head.chunked].filter
        (fun header => header.1 ∉ rewrittenNames) = [] := by
      cases head.chunked <;> rfl
    simp only [receivedHead]
    rw [List.filter_append, framing, List.append_nil, others]

theorem sent_sized (ops : List Op) : ∀ piece ∈ ops.flatMap Op.fed, piece.length < 2 ^ 63 := by
  intro piece member
  obtain ⟨op, _, inside⟩ := List.mem_flatMap.mp member
  cases op with
  | feedRequestBody payload isView =>
    rw [List.mem_singleton.mp inside]
    exact payload.sized
  | _ => simp [Op.fed] at inside

/-- The bytes of a finished request are one valid message for the upstream. -/
theorem Sent.message {limits receiver : CodecLimits} {block : Bytes} {head : RequestHead}
    (decoded : parseRequestHead limits block = .ok head) {request : ExchangeRequest}
    (forwards : Forwards request head)
    (origin : request.target.head? = some '/') (trimmed : Trimmed isOws request.upstreamAuthority)
    {headWire wire : Bytes}
    (encoded : encodeProxyRequestHead (upper request.method) request.target request.headers
      request.upstreamAuthority
      request.clientIp request.scheme request.originalHost request.contentLength request.chunkedRequest
      request.trustForwarded request.expectContinueHandled = .ok headWire) {pieces : List Bytes}
    (sized : ∀ piece ∈ pieces, piece.length < 2 ^ 63) {trailers : List Header}
    (parsed : ∀ header ∈ trailers, ParsedField header)
    (plainTrailers : head.chunked = false → trailers = [])
    {last : ProxyExchange}
    (sent : Sent headWire head.contentLength head.chunked pieces (some trailers) wire last)
    (drained : last.toUpstream.queuedBytes = 0) (admits : receiver.Admits wire.length) :
    ∃ message : Message, message.Valid receiver ∧ message.wire = wire ∧ Reaches request head message.head ∧
      message.body.data = pieces.flatten ∧ message.body.trailers = sanitizeHopByHop trailers := by
  obtain ⟨ending, endsWith, wireEq⟩ := sent.wire
  have empty : last.toUpstream.contents = [] :=
    List.eq_nil_of_length_eq_zero (sent.wellFormed.queued ▸ drained)
  rw [empty, List.append_nil] at wireEq
  have bodyLength : headWire.length + (bodyWire head.chunked pieces).length + ending.length =
      wire.length := by
    rw [wireEq, List.length_append, List.length_append]
  have room := admits.bodyBytes
  cases endsWith with
  | fixed plain total =>
    rw [plain] at bodyLength wireEq
    simp only [bodyWire, Bool.false_eq_true, if_false] at bodyLength wireEq
    obtain ⟨received, receivedBlock, rfl, headBlock, reaches⟩ :=
      encodedHead_reaches decoded forwards origin trimmed
      encoded (by omega) (admits.mono (by omega))
    have flat : (pieces.filter (· ≠ [])).flatten = pieces.flatten := List.flatten_filter_ne_nil
    refine ⟨⟨receivedBlock, received, .fixed (pieces.filter (· ≠ []))⟩, ⟨headBlock, ?_⟩, ?_,
      reaches, flat, ?_⟩
    · refine .fixed (reaches.chunked.trans plain) ?_ (by simp)
      rw [reaches.contentLength, flat, total]
    · rw [Message.wire, MessageBody.wire, flat, wireEq, List.append_nil]
    · rw [plainTrailers plain]
      rfl
  | @chunked _ lines coded encodes =>
    rw [coded] at bodyLength wireEq
    simp only [bodyWire, if_true] at bodyLength wireEq
    obtain ⟨_, length⟩ := parseRequestHead_length decoded
    obtain ⟨received, receivedBlock, rfl, headBlock, reaches⟩ :=
      encodedHead_reaches decoded forwards origin trimmed
      encoded (by rw [length coded]; omega) (admits.mono (by omega))
    have sanitized := sanitizeHopByHop_subset parsed
    obtain ⟨rfl, absent⟩ := requestTrailers_parsed sanitized encodes
    have same : (sanitizeHopByHop trailers).map readField = sanitizeHopByHop trailers :=
      (List.map_congr_left fun header member => (sanitized header member).wire.2).trans (List.map_id _)
    refine ⟨⟨receivedBlock, received, .chunked (encodedBody pieces (sanitizeHopByHop trailers))⟩,
      ⟨headBlock, ?_⟩, ?_, reaches, encodedBody_data _ _, same⟩
    · refine .chunked (reaches.chunked.trans coded) (encodedBody_valid sized
        (fun header member => (sanitized header member).wire.1) (admits.toAdmits.mono ?_)) ?_
      · rw [encodedBody_wire, List.length_append]
        omega
      · change Http1ServerCodec.forbiddenTrailers.any
          (hasField ((sanitizeHopByHop trailers).map readField)) = false
        rw [same]
        exact any_hasField_eq_false absent
    · rw [Message.wire, MessageBody.wire, encodedBody_wire, wireEq]
      simp only [List.append_assoc]

/-- A request that the server codec decoded reaches the upstream as one request with the same
meaning. Its body may be fed in other pieces than it came in, and the bytes may be taken at any time
and in any portions. What is assumed is that the target is in origin form, that the authority has no
white space around it and that the operations of the exchange do not raise. The receiver is any
codec whose limits admit what was sent; nothing is assumed about the limits of the first codec,
about the accounting or about the response side. -/
theorem proxy_request_round_trip (limits : CodecLimits) (calls : List (Bytes × Int))
    (codec : Http1ServerCodec)
    (before after : List Event) (head : RequestHead) (pieces : List Bytes) (trailers : List Header)
    (decoded : Http1ServerCodec.feedAll { limits := limits } calls = (codec,
      .ok (before ++ .requestHead head :: (pieces.map .bodyChunk ++ .requestEnd trailers :: after))))
    (request : ExchangeRequest) (forwards : Forwards request head)
    (origin : request.target.head? = some '/') (trimmed : Trimmed isOws request.upstreamAuthority)
    (bounds : ExchangeLimits) (accounting : Option Ledger)
    (ops : List Op) (sent : Transmission) (run : transmit request bounds accounting ops = .ok sent)
    (body : (ops.flatMap Op.fed).flatten = pieces.flatten) (ended : ops.findSome? Op.ended = some trailers)
    (drained : sent.queuedUpstream = 0) :
    ∀ receiver : CodecLimits, receiver.Admits sent.upstream.length → ∃ received pieces',
      Http1ServerCodec.feed { limits := receiver } sent.upstream =
        ({ limits := receiver }, .ok (.requestHead received :: List.map .bodyChunk pieces' ++
          [.requestEnd (sanitizeHopByHop trailers)])) ∧
      pieces'.flatten = pieces.flatten ∧ Reaches request head received := by
  intro receiver admits
  obtain ⟨⟨block, parsed⟩, trailersParsed, plainTrailers⟩ := decoded_request decoded
  obtain ⟨exchange, last, start, performed, queued, _⟩ := transmit_eq_ok run
  obtain ⟨headWire, initial, encoded⟩ := init_sent start
  have final := initial.performAll performed
  rw [forwards.contentLength, forwards.chunked, ended] at final
  obtain ⟨message, valid, wire, reaches, data, sanitized⟩ :=
    final.message parsed forwards origin trimmed encoded
    (sent_sized ops) trailersParsed plainTrailers (queued.symm.trans drained) admits
  obtain ⟨delivered, same, fed⟩ := Http1ServerCodec.feed_message valid
  rw [sanitized, wire] at fed
  exact ⟨message.head, delivered, fed, same.trans (data.trans body), reaches⟩

/-- An upload whose body is taken while it is fed. -/
theorem proxy_request_round_trip_upload :
    let request : ExchangeRequest := {
      method := "put".toList, target := "/v/u".toList, upstreamAuthority := "b".toList
      headers := [("host".toList, "a".toList), ("transfer-encoding".toList, "chunked".toList)]
      clientIp := "c".toList, scheme := "s".toList, originalHost := "a".toList
      contentLength := -1, chunkedRequest := true }
    let head : RequestHead := ⟨"put".toList, "/u".toList, .http11, request.headers, true, false, -1, true⟩
    let ops : List Op := [.takeUpstream 9, .feedRequestBody ⟨[104], by decide⟩ false, .takeUpstream (-1),
      .feedRequestBody ⟨[105], by decide⟩ true, .finishRequest [("k".toList, "v".toList)],
      .takeUpstream (-1)]
    let wire := ascii ("PUT /v/u HTTP/1.1\r\nhost: b\r\nx-forwarded-for: c\r\nx-forwarded-proto: s\r\n" ++
      "x-forwarded-host: a\r\ntransfer-encoding: chunked\r\n\r\n1\r\nh\r\n1\r\ni\r\n0\r\nk: v\r\n\r\n")
    transmit request {} none ops = .ok ⟨wire, [], 0, 0⟩ ∧
      ∀ receiver : CodecLimits, receiver.Admits wire.length → ∃ received pieces',
        Http1ServerCodec.feed { limits := receiver } wire =
          ({ limits := receiver }, .ok (.requestHead received :: List.map .bodyChunk pieces' ++
            [.requestEnd (sanitizeHopByHop [("k".toList, "v".toList)])])) ∧
        pieces'.flatten = [104, 105] ∧ Reaches request head received := by
  intro request head ops wire
  have decoded : Http1ServerCodec.feedAll { limits := {} }
      [(ascii
        "put /u HTTP/1.1\r\nHost: a\r\nTransfer-Encoding: chunked\r\n\r\n2\r\nhi\r\n0\r\nk: v\r\n\r\n",
        0)] = ({ limits := {} }, .ok ([] ++ .requestHead head :: ([[104, 105]].map .bodyChunk ++
        .requestEnd [("k".toList, "v".toList)] :: []))) := by
    rw [ascii_ofList]
    decide +kernel
  have run : transmit request {} none ops = .ok ⟨wire, [], 0, 0⟩ := by
    simp only [wire]
    rw [ascii_append, ascii_ofList, ascii_ofList]
    decide +kernel
  have origin : request.target.head? = some '/' := by decide
  have trimmed : Trimmed isOws request.upstreamAuthority :=
    ⟨by simp [request, isOws], by simp [request, isOws]⟩
  have body : (ops.flatMap Op.fed).flatten = [[104, 105]].flatten := by decide
  have ended : ops.findSome? Op.ended = some [("k".toList, "v".toList)] := by decide
  have sends := proxy_request_round_trip {} _ _ [] [] head [[104, 105]] _ decoded request
    ⟨rfl, rfl, rfl, rfl⟩ origin
    trimmed {} none ops ⟨wire, [], 0, 0⟩ run body ended rfl
  dsimp only at sends
  exact ⟨run, sends⟩

/-- A hop-by-hop field of the original request is not sent on. -/
theorem proxy_request_drops_te :
    let request : ExchangeRequest := {
      method := "GET".toList, target := "/".toList, upstreamAuthority := "b".toList
      headers := [("host".toList, "a".toList), ("te".toList, "trailers".toList)]
      clientIp := "c".toList, scheme := "s".toList, originalHost := "a".toList }
    let head : RequestHead := ⟨"GET".toList, "/".toList, .http11, request.headers, true, false, 0, false⟩
    let wire := ascii ("GET / HTTP/1.1\r\nhost: b\r\nx-forwarded-for: c\r\nx-forwarded-proto: s\r\n" ++
      "x-forwarded-host: a\r\ncontent-length: 0\r\n\r\n")
    Http1ServerCodec.feedAll { limits := {} }
      [(ascii "GET / HTTP/1.1\r\nHost: a\r\nTE: trailers\r\n\r\n", 0)] =
        ({ limits := {} }, .ok [.requestHead head, .requestEnd []]) ∧
      transmit request {} none [.finishRequest [], .takeUpstream (-1)] = .ok ⟨wire, [], 0, 0⟩ ∧
      ∃ received, Http1ServerCodec.feed { limits := {} } wire =
          ({ limits := {} }, .ok [.requestHead received, .requestEnd []]) ∧
        received.headers.filter (fun header => header.1 ∉ rewrittenNames) ≠
          head.headers.filter fun header => header.1 ∉ rewrittenNames := by
  intro request head wire
  let received : RequestHead := {
    method := "GET".toList, target := "/".toList, version := .http11, keepAlive := true,
    expectContinue := false
    headers := [("host".toList, "b".toList), ("x-forwarded-for".toList, "c".toList),
      ("x-forwarded-proto".toList, "s".toList), ("x-forwarded-host".toList, "a".toList),
      ("content-length".toList, "0".toList)] }
  simp only [wire]
  rw [ascii_append, ascii_ofList, ascii_ofList, ascii_ofList]
  exact ⟨by decide, by decide +kernel, received, by decide +kernel, by decide +kernel⟩

end ProxyExchange
end PccGateway
