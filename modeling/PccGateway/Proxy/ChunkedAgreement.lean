import PccGateway.Http1.Fragmentation
import PccGateway.Proxy.UpstreamBody
import PccGateway.Proxy.UpstreamRun

namespace PccGateway
open Incremental Search

theorem BodyLimits.after_zero (limits : BodyLimits) : limits.after 0 = limits := by
  simp [BodyLimits.after]

/-- A chunked head is the last thing the codec took: nothing is buffered, and a size line is next. -/
def Http1ServerCodec.AwaitsChunkedBody (limits : CodecLimits) (codec : Http1ServerCodec) : Prop :=
  ∃ calls events head, feedAll { limits := limits } calls = (codec, .ok events) ∧
    events.getLast? = some (.requestHead head) ∧ head.chunked = true ∧
    codec.state = .chunkSize ∧ codec.buffer = []

/-- `body` is fed in one piece and is exactly one chunked body, with nothing left over. -/
def Http1ServerCodec.DecodesBody (codec : Http1ServerCodec) (body data : Bytes)
    (trailers : List Header) : Prop :=
  ∃ (next : _) (pieces : List Bytes), codec.feed body =
    (next, .ok (pieces.map .bodyChunk ++ [.requestEnd trailers])) ∧
    pieces.flatten = data ∧ next.buffer = []

def Http1UpstreamCodec.AwaitsChunkedBody (method : Text) (limits : UpstreamLimits)
    (codec : Http1UpstreamCodec) :
    Prop :=
  ∃ pieces events head, feedAll { requestMethod := upper method, limits := limits } pieces =
    (codec, .ok events) ∧
    events.getLast? = some (.responseHead head) ∧ head.chunked = true ∧ head.bodyExpected = true ∧
    codec.state = .chunkSize ∧ codec.buffer = []

def Http1UpstreamCodec.DecodesBody (codec : Http1UpstreamCodec) (body data : Bytes)
    (trailers : List Header) : Prop :=
  ∃ (next : _) (pieces : List Bytes), codec.feed body =
    (next, .ok (pieces.map .responseBody ++ [.responseEnd trailers])) ∧
    pieces.flatten = data ∧ next.buffer = []

/-- `body` is a chunked body whose trailer section names `host`. -/
def HostTrailer (limits : BodyLimits) (body : Bytes) : Prop :=
  ∃ chunked : ChunkedBody,
    chunked.Valid limits ∧ chunked.wire = body ∧ hasField chunked.trailers "host" = true

namespace Http1ServerCodec
variable {limits : CodecLimits} {codec : Http1ServerCodec} {body data : Bytes} {trailers : List Header}

theorem AwaitsChunkedBody.fresh (ready : codec.AwaitsChunkedBody limits) :
    codec.limits = limits ∧ codec.state = .chunkSize ∧ codec.buffer = [] ∧ codec.bodyReceived = 0 ∧
      codec.closed = false := by
  obtain ⟨calls, events, head, run, last, chunked, state, buffer⟩ := ready
  have start : ∃ messages taken past, Decoded limits [] { limits := limits } [] messages taken past :=
    ⟨[], [], [], rfl, rfl, by simp, .idle rfl rfl rfl, rfl⟩
  obtain ⟨messages, taken, past, decoded⟩ := Decoded.feedAll start run
  obtain ⟨block, head', chunks, _, _, _, received, _, rfl⟩ := decoded.inProgress.chunkSize_inv state
  have none : chunks = [] := by
    have events_eq := decoded.events_eq
    rw [List.nil_append] at events_eq
    rcases List.eq_nil_or_concat chunks with empty | ⟨front, chunk, rfl⟩
    · exact empty
    · rw [events_eq, List.concat_eq_append, List.map_append, List.map_singleton, ← List.cons_append,
        ← List.append_assoc, List.getLast?_concat] at last
      simp at last
  exact ⟨decoded.limits_eq.symm, state, buffer, by simpa [none] using received, feedAll_closed run⟩

/-- The server codec decodes exactly the valid chunked bodies without a forbidden trailer. -/
theorem decodesBody_iff (ready : codec.AwaitsChunkedBody limits) :
    codec.DecodesBody body data trailers ↔ ∃ chunked : ChunkedBody, chunked.Valid limits.toBodyLimits ∧
      chunked.wire = body ∧ chunked.data = data ∧ chunked.trailers = trailers ∧
      forbiddenTrailers.any (hasField trailers) = false := by
  obtain ⟨rfl, state, buffer, received, opened⟩ := ready.fresh
  have pushed : (codec.push body).buffer = body := by simp [push, buffer]
  constructor
  · rintro ⟨next, pieces, run, rfl, nothing⟩
    have steps := (Decoder.feed_ok_iff.mp (feed_eq_ok_iff.mp run).2.2).1
    obtain ⟨chunked, wire, rfl, rfl, valid, allowed⟩ := @body_of_steps (codec.push body) _ _ _ state steps
    rw [pushed, nothing, List.append_nil] at wire
    simp only [push, received, BodyLimits.after_zero] at valid
    exact ⟨chunked, valid, wire.symm, rfl, rfl, allowed⟩
  · rintro ⟨chunked, valid, rfl, rfl, rfl, allowed⟩
    have steps := @body_steps (codec.push chunked.wire) chunked [] state (by simp [pushed])
      (by simpa [push, received, BodyLimits.after_zero] using valid) allowed
    refine ⟨{ limits := codec.limits }, chunked.chunks.map Chunk.data,
      feed_eq_ok_iff.mpr ⟨by decide, opened, Decoder.feed_ok_iff.mpr ⟨?_, fresh_waits codec.limits⟩⟩,
      rfl, rfl⟩
    have ends : resetMessage { codec.push chunked.wire with buffer := [] } =
        { limits := codec.limits } := by
      simp [resetMessage, push, opened]
    rw [ends] at steps
    rw [List.map_map]
    exact steps

/-- A forbidden trailer is an error, however well formed the rest is. -/
theorem feed_forbidden (ready : codec.AwaitsChunkedBody limits) {chunked : ChunkedBody}
    (valid : chunked.Valid limits.toBodyLimits)
    (forbidden : forbiddenTrailers.any (hasField chunked.trailers) = true) :
    (codec.feed chunked.wire).2 = raiseHttp1 400 "forbidden-trailer"
    "framing or routing field in trailers" := by
  obtain ⟨rfl, state, buffer, received, opened⟩ := ready.fresh
  obtain ⟨remaining, total, steps⟩ := @data_steps (codec.push chunked.wire) chunked [] state
    (by simp [push, buffer]) (by simpa [push, received, BodyLimits.after_zero] using valid)
  have fails := @trailers_forbidden { codec.push chunked.wire with
    buffer := chunked.trailerWire ++ []
    state := .trailers
    remaining := remaining
    bodyReceived := total } _ _ rfl (List.append_nil _) valid.trailers forbidden
  have run := @Decoder.feed_fail _ _ _ _ decoder codec _ _ chunked.wire _ _ steps fails
  simp [feed, feedPending, opened, run, raiseHttp1]

end Http1ServerCodec

namespace Http1UpstreamCodec
variable {method : Text} {limits : UpstreamLimits} {codec : Http1UpstreamCodec} {body data : Bytes}
  {trailers : List Header}

theorem AwaitsChunkedBody.fresh (ready : codec.AwaitsChunkedBody method limits) :
    codec.limits = limits ∧ codec.state = .chunkSize ∧ codec.buffer = [] ∧ codec.bodyReceived = 0 ∧
      codec.complete = false ∧ codec.closed = false := by
  obtain ⟨fed, events, head, run, last, chunked, expected, state, buffer⟩ := ready
  have start : Progress { requestMethod := upper method, limits := limits } [] :=
    @Progress.heads _ [] rfl rfl rfl (by simp)
  obtain ⟨infos, head', pieces, split, unfinished, _, _, _, _, body, _⟩ :=
    (start.feedAll run).body_inv (by simp [state]) (by simp [state])
  have none : pieces = [] := by
    rcases List.eq_nil_or_concat pieces with empty | ⟨front, piece, rfl⟩
    · exact empty
    · rw [List.nil_append] at split
      rw [split, List.concat_eq_append, List.map_append, List.map_singleton, ← List.cons_append,
        ← List.append_assoc, List.getLast?_concat] at last
      simp at last
  obtain ⟨_, limits_eq, opened⟩ := feedAll_frame run
  refine ⟨limits_eq, state, buffer, ?_, unfinished, opened⟩
  rcases body with ⟨other⟩ | ⟨_, _, received⟩ | ⟨other⟩ | ⟨other⟩
  · simp [state] at other
  · simpa [none] using received
  · simp [state] at other
  · simp [state] at other

/-- The upstream codec decodes exactly the valid chunked bodies without a framing trailer. -/
theorem decodesBody_iff (ready : codec.AwaitsChunkedBody method limits) :
    codec.DecodesBody body data trailers ↔ ∃ chunked : ChunkedBody, chunked.Valid limits.toBodyLimits ∧
      chunked.wire = body ∧ chunked.data = data ∧ sanitizeHopByHop chunked.trailers = trailers ∧
      forbiddenTrailers.any (hasField chunked.trailers) = false := by
  obtain ⟨rfl, state, buffer, received, unfinished, opened⟩ := ready.fresh
  have pushed : (codec.push body).buffer = body := by simp [push, buffer]
  constructor
  · rintro ⟨next, pieces, run, rfl, nothing⟩
    have steps := ((feed_eq_ok_iff opened unfinished).mp run).1
    obtain ⟨chunked, wire, rfl, rfl, valid, allowed⟩ := @body_of_steps (codec.push body) _ _ _ state steps
    rw [pushed] at wire
    simp only [push, received, BodyLimits.after_zero] at valid
    exact ⟨chunked, valid, wire.symm, rfl, rfl, allowed⟩
  · rintro ⟨chunked, valid, rfl, rfl, rfl, allowed⟩
    obtain ⟨next, steps, complete, _, nothing⟩ := @body_steps (codec.push chunked.wire) chunked state pushed
      (by simpa [push, received, BodyLimits.after_zero] using valid) allowed
    refine ⟨next, chunked.chunks.map Chunk.data, (feed_eq_ok_iff opened unfinished).mpr ⟨?_, ?_⟩,
      rfl, nothing⟩
    · simpa [List.map_map, Function.comp_def] using steps
    · simp [turn, complete]

end Http1UpstreamCodec

theorem serverForbidden_iff {trailers : List Header} :
    Http1ServerCodec.forbiddenTrailers.any (hasField trailers) = false ↔
      Http1UpstreamCodec.forbiddenTrailers.any (hasField trailers) = false ∧
      hasField trailers "host" = false := by
  simp [Http1ServerCodec.forbiddenTrailers, Http1UpstreamCodec.forbiddenTrailers, and_assoc]

/-- The two chunked-body decoders accept the same bodies, a `host` trailer apart, with the same
data; the upstream codec's trailers are the server codec's, sanitised. What is assumed is that both
codecs wait for the first chunk of a body under the same body limits. Nothing is assumed about the
body, which may be malformed, cut short or followed by other bytes, nor about the method and the
limits of the heads. -/
theorem chunked_decoders_agree (limits : CodecLimits) (upstreamLimits : UpstreamLimits) (method : Text)
    (server : Http1ServerCodec) (upstream : Http1UpstreamCodec)
    (sameLimits : upstreamLimits.toBodyLimits = limits.toBodyLimits)
    (serverReady : server.AwaitsChunkedBody limits)
    (upstreamReady : upstream.AwaitsChunkedBody method upstreamLimits) (body : Bytes) :
    ((∃ data trailers, server.DecodesBody body data trailers) ↔
      (∃ data trailers, upstream.DecodesBody body data trailers) ∧ ¬ HostTrailer limits.toBodyLimits body) ∧
    (HostTrailer limits.toBodyLimits body →
      (server.feed body).2 = raiseHttp1 400 "forbidden-trailer" "framing or routing field in trailers") ∧
    ∀ data trailers data' trailers', server.DecodesBody body data trailers → upstream.DecodesBody body
      data' trailers' → data' = data ∧ trailers' = sanitizeHopByHop trailers := by
  have rejected : HostTrailer limits.toBodyLimits body →
      (server.feed body).2 = raiseHttp1 400 "forbidden-trailer" "framing or routing field in trailers" := by
    rintro ⟨chunked, valid, rfl, host⟩
    exact Http1ServerCodec.feed_forbidden serverReady valid
      (by simp [Http1ServerCodec.forbiddenTrailers, host])
  have upstreamDecodes {data : Bytes} {trailers : List Header}
    (decodes : server.DecodesBody body data trailers) :
      upstream.DecodesBody body data (sanitizeHopByHop trailers) := by
    obtain ⟨chunked, valid, wire, rfl, rfl, allowed⟩ :=
      (Http1ServerCodec.decodesBody_iff serverReady).mp decodes
    exact (Http1UpstreamCodec.decodesBody_iff upstreamReady).mpr
      ⟨chunked, sameLimits ▸ valid, wire, rfl, rfl, (serverForbidden_iff.mp allowed).1⟩
  refine ⟨⟨?_, ?_⟩, rejected, ?_⟩
  · rintro ⟨data, trailers, decodes⟩
    refine ⟨⟨data, _, upstreamDecodes decodes⟩, fun host => ?_⟩
    obtain ⟨next, pieces, run, _, _⟩ := decodes
    have refused := rejected host
    rw [run] at refused
    simp [raiseHttp1] at refused
  · rintro ⟨⟨data, trailers, decodes⟩, noHost⟩
    obtain ⟨chunked, valid, wire, _, _, allowed⟩ :=
      (Http1UpstreamCodec.decodesBody_iff upstreamReady).mp decodes
    rw [sameLimits] at valid
    refine ⟨_, _, (Http1ServerCodec.decodesBody_iff serverReady).mpr ⟨chunked, valid, wire, rfl, rfl, ?_⟩⟩
    have absent : hasField chunked.trailers "host" = false := by
      by_contra present
      exact noHost ⟨chunked, valid, wire, by simpa using present⟩
    exact serverForbidden_iff.mpr ⟨allowed, absent⟩
  · rintro data trailers data' trailers' decodes decodes'
    obtain ⟨next, pieces, run, rfl, _⟩ := upstreamDecodes decodes
    obtain ⟨next', pieces', run', rfl, _⟩ := decodes'
    rw [run] at run'
    simp only [Prod.mk.injEq, Except.ok.injEq] at run'
    obtain ⟨_, same⟩ := run'
    obtain ⟨samePieces, sameEnd⟩ := List.append_inj' same rfl
    have injective : Function.Injective UpstreamEvent.responseBody := fun _ _ eq => by cases eq; rfl
    rw [injective.list_map samePieces]
    simp_all

/-- A two-byte body with a trailer, behind a request head and behind a response head. -/
theorem chunked_decoders_agree_greeting :
    let server : Http1ServerCodec := { limits := {}, state := .chunkSize }
    let upstream : Http1UpstreamCodec := { requestMethod := "GET".toList, limits := {}, state :=
      .chunkSize }
    let body := ascii "2\r\nhi\r\n0\r\nx: y\r\n\r\n"
    server.AwaitsChunkedBody {} ∧ upstream.AwaitsChunkedBody "get".toList {} ∧
      server.DecodesBody body (ascii "hi") [("x".toList, "y".toList)] ∧
      ((∃ data trailers, server.DecodesBody body data trailers) ↔
        (∃ data trailers, upstream.DecodesBody body data trailers) ∧ ¬ HostTrailer {} body) := by
  intro server upstream body
  have serverReady : server.AwaitsChunkedBody {} :=
    ⟨[(ascii "PUT / HTTP/1.0\r\ntransfer-encoding: chunked\r\n\r\n", 0)], _, _, rfl, rfl, rfl, rfl, rfl⟩
  have upstreamReady : upstream.AwaitsChunkedBody "get".toList {} :=
    ⟨[ascii "HTTP/1.1 200 OK\r\ntransfer-encoding: chunked\r\n\r\n"], _, _, rfl, rfl, rfl, rfl, rfl, rfl⟩
  have decodes : server.DecodesBody body (ascii "hi") [("x".toList, "y".toList)] :=
    ⟨{ limits := {} }, [ascii "hi"], rfl, rfl, rfl⟩
  exact ⟨serverReady, upstreamReady, decodes,
    (chunked_decoders_agree {} {} "get".toList server upstream rfl serverReady upstreamReady body).1⟩

end PccGateway
