import PccGateway.Proxy.UpstreamCodec

namespace PccGateway
open Incremental Search

theorem asProxyError_eq_ok_iff {α : Type} {code : Http1Error → String} {result : Except Exn α} {a : α} :
    asProxyError code result = .ok a ↔ result = .ok a := by
  match result with
  | .ok _ => rfl
  | .error (.http1 _) => simp [asProxyError, raiseProxy]
  | .error (.proxyProtocol _ _) | .error .unicode | .error (.value _) | .error (.bufferLimit _)
  | .error (.bufferClosed _) | .error (.bufferReleased _) | .error (.transport _) | .error (.runtime _)
  | .error (.lookup _) | .error .external => rfl

theorem responseChunked_eq_ok_iff {length : Int} {headers : List Header} {chunked : Bool} :
    responseChunked length headers = .ok chunked ↔
      hasField headers "transfer-encoding" = false ∧ chunked = false ∨
      hasField headers "transfer-encoding" = true ∧ length < 0 ∧
        fieldTokens headers "transfer-encoding" = ["chunked".toList] ∧ chunked = true := by
  unfold responseChunked
  by_cases present : hasField headers "transfer-encoding" = true
  · simp only [present, not_true_eq_false, if_false, ite_raiseProxy_eq_ok, not_not, Except.ok.injEq,
      Bool.true_eq_false, false_and, false_or, true_and]
    exact ⟨fun ⟨a, b, c⟩ => ⟨by omega, b, c.symm⟩, fun ⟨a, b, c⟩ => ⟨by omega, b, c.symm⟩⟩
  · simp [present, eq_comm]

/-- The head that `_parse_head` builds from its parts. -/
def responseHead (requestMethod : Text) (version : Version) (status : Nat) (reason : Bytes)
    (headers : List Header) (contentLength : Int) (chunked : Bool) : UpstreamResponseHead :=
  let bodyExpected :=
    ¬ (requestMethod = "HEAD".toList ∨ (100 ≤ status ∧ status < 200) ∨ status = 204 ∨ status = 304)
  { status := status
    reason := latin1Text reason
    version := version
    headers := headers
    contentLength := contentLength
    chunked := chunked
    keepAlive := if bodyExpected ∧ ¬ chunked ∧ contentLength < 0 then
      false else connectionKeepAlive version headers
    informational := 100 ≤ status ∧ status < 200
    bodyExpected := bodyExpected }

/-- What an accepted head went through, part by part. -/
theorem parseResponseHead_eq_ok_iff {method : Text} {limits : BodyLimits} {block : Bytes}
    {head : UpstreamResponseHead} :
    parseResponseHead method limits block = .ok head ↔
      ∃ version status reason headers contentLength chunked,
        parseStatusLine ((splitCrlf block).headD []) = .ok (version, status, reason) ∧
        parseHeaders (splitCrlf block).tail limits.maxHeaderCount = .ok headers ∧
        responseContentLength limits.maxBodyBytes headers = .ok contentLength ∧
        responseChunked contentLength headers = .ok chunked ∧ status ≠ 101 ∧
        head = responseHead method version status reason headers contentLength chunked := by
  simp only [parseResponseHead, bind_eq_ok, Prod.exists, asProxyError_eq_ok_iff, ite_raiseProxy_eq_ok]
  constructor
  · rintro ⟨version, status, reason, line, headers, fields, length, lengthRun, chunked, coding,
      upgrade, result⟩
    cases result
    exact ⟨version, status, reason, headers, length, chunked, line, fields, lengthRun, coding, upgrade, rfl⟩
  · rintro ⟨version, status, reason, headers, length, chunked, line, fields, lengthRun, coding,
      upgrade, rfl⟩
    exact ⟨version, status, reason, line, headers, fields, length, lengthRun, chunked, coding, upgrade, rfl⟩

namespace Http1UpstreamCodec

/-- The codec with its response ended. -/
def finished (codec : Http1UpstreamCodec) : Http1UpstreamCodec :=
  { codec with buffer := [], state := .complete, complete := true }

/-- The successful turns of the response decoder, one constructor for each way through the loop. -/
inductive Step : Http1UpstreamCodec → Http1UpstreamCodec → List UpstreamEvent → Bool → Prop
  | head {codec : Http1UpstreamCodec} {block rest : Bytes} {head : UpstreamResponseHead} :
      codec.state = .head → codec.buffer = block ++ doubleCrlf ++ rest → Delimited doubleCrlf block →
      ((block.length + 4 : Nat) : Int) ≤ codec.limits.maxHeaderBytes →
      parseResponseHead codec.requestMethod codec.limits.toBodyLimits block = .ok head →
      (enterBody { codec with buffer := rest } head).state ≠ .finalEmpty →
      Step codec (enterBody { codec with buffer := rest } head) [.responseHead head] false
  | headOnly {codec : Http1UpstreamCodec} {block : Bytes} {head : UpstreamResponseHead} :
      codec.state = .head → codec.buffer = block ++ doubleCrlf → Delimited doubleCrlf block →
      ((block.length + 4 : Nat) : Int) ≤ codec.limits.maxHeaderBytes →
      parseResponseHead codec.requestMethod codec.limits.toBodyLimits block = .ok head →
      (enterBody { codec with buffer := [] } head).state = .finalEmpty →
      Step codec codec.finished [.responseHead head, .responseEnd []] true
  | fixedPart {codec : Http1UpstreamCodec} :
      codec.state = .fixedBody → codec.buffer ≠ [] → codec.buffer.length < codec.remaining →
      Step codec { codec with
        buffer := []
        remaining := codec.remaining - codec.buffer.length
        bodyReceived := codec.bodyReceived + codec.buffer.length } [.responseBody codec.buffer] false
  | fixedLast {codec : Http1UpstreamCodec} :
      codec.state = .fixedBody → codec.buffer ≠ [] → codec.buffer.length = codec.remaining →
      Step codec (finished { codec with
        remaining := 0
        bodyReceived := codec.bodyReceived +
          codec.remaining }) [.responseBody codec.buffer, .responseEnd []] true
  | chunkSize {codec : Http1UpstreamCodec} {line rest : Bytes} {size : Nat} :
      codec.state = .chunkSize → codec.buffer = line ++ crlf ++ rest → Delimited crlf line →
      line.length ≤ 128 → parseChunkSizeLine line = .ok size → 0 < size →
      (size : Int) ≤ codec.limits.maxChunkBytes →
      ((codec.bodyReceived + size : Nat) : Int) ≤ codec.limits.maxBodyBytes →
      Step codec { codec with buffer := rest, state := .chunkData, remaining := size } [] false
  | lastChunk {codec : Http1UpstreamCodec} {line rest : Bytes} :
      codec.state = .chunkSize → codec.buffer = line ++ crlf ++ rest → Delimited crlf line →
      line.length ≤ 128 → parseChunkSizeLine line = .ok 0 → 0 ≤ codec.limits.maxChunkBytes →
      (codec.bodyReceived : Int) ≤ codec.limits.maxBodyBytes →
      Step codec { codec with buffer := rest, state := .trailers } [] false
  | chunkPart {codec : Http1UpstreamCodec} :
      codec.state = .chunkData → codec.buffer ≠ [] → codec.buffer.length < codec.remaining →
      Step codec { codec with
        buffer := []
        remaining := codec.remaining - codec.buffer.length
        bodyReceived := codec.bodyReceived + codec.buffer.length } [.responseBody codec.buffer] false
  | chunkLast {codec : Http1UpstreamCodec} {data rest : Bytes} :
      codec.state = .chunkData → codec.buffer ≠ [] → codec.buffer = data ++ rest →
      data.length = codec.remaining →
      Step codec { codec with
        buffer := rest
        remaining := 0
        bodyReceived := codec.bodyReceived + codec.remaining
        state := .chunkCrlf } (if data = [] then [] else [.responseBody data]) false
  | chunkCrlf {codec : Http1UpstreamCodec} {rest : Bytes} :
      codec.state = .chunkCrlf → codec.buffer = crlf ++ rest →
      Step codec { codec with buffer := rest, state := .chunkSize } [] false
  | noTrailers {codec : Http1UpstreamCodec} :
      codec.state = .trailers → codec.buffer = crlf → Step codec codec.finished [.responseEnd []] true
  | trailers {codec : Http1UpstreamCodec} {block : Bytes} {trailers : List Header} :
      codec.state = .trailers → codec.buffer = block ++ doubleCrlf → Delimited doubleCrlf block →
      ¬ crlf <+: block ++ doubleCrlf →
      ((block.length + 4 : Nat) : Int) ≤ codec.limits.maxHeaderBytes →
      parseHeaders (splitCrlf block) codec.limits.maxHeaderCount = .ok trailers →
      forbiddenTrailers.any (hasField trailers) = false →
      Step codec codec.finished [.responseEnd (sanitizeHopByHop trailers)] true
  | untilEof {codec : Http1UpstreamCodec} :
      codec.state = .untilEof → codec.buffer ≠ [] →
      ((codec.bodyReceived + codec.buffer.length : Nat) : Int) ≤ codec.limits.maxBodyBytes →
      Step codec { codec with buffer := [], bodyReceived := codec.bodyReceived + codec.buffer.length }
        [.responseBody codec.buffer] false

theorem finishTurn_eq_emit_iff {codec next : Http1UpstreamCodec} {events out : List UpstreamEvent}
    {trailers : List Header} {complete : Bool} :
    codec.finishTurn events trailers = .emit next out complete ↔
      codec.buffer = [] ∧ next = codec.finished ∧ out = events ++ [.responseEnd trailers] ∧
      complete = true := by
  unfold finishTurn
  by_cases empty : codec.buffer = []
  · simp only [empty, ne_eq, not_true_eq_false, if_false, Turn.emit.injEq, true_and, finished]
    exact ⟨fun ⟨a, b, c⟩ => ⟨a.symm, b.symm, c.symm⟩, fun ⟨a, b, c⟩ => ⟨a.symm, b.symm, c.symm⟩⟩
  · simp [empty, failTurn]

theorem enterBody_buffer (codec : Http1UpstreamCodec) (head : UpstreamResponseHead) :
    (codec.enterBody head).buffer = codec.buffer := by
  unfold enterBody
  split <;> [rfl; (split <;> [rfl; (split <;> [rfl; (split <;> rfl)])])]

theorem enterBody_finalEmpty {codec : Http1UpstreamCodec} {head : UpstreamResponseHead}
    (empty : (codec.enterBody head).state = .finalEmpty) :
    codec.enterBody head = { codec with state := .finalEmpty } := by
  unfold enterBody at empty ⊢
  split at empty
  · simp at empty
  · rename_i final
    split at empty
    · rename_i bare
      rw [if_neg final, if_pos bare]
    · split at empty
      · simp at empty
      · split at empty <;> simp at empty

theorem Step.of_headTurn {codec next : Http1UpstreamCodec} {events : List UpstreamEvent} {complete : Bool}
    (state : codec.state = .head) (turn : codec.headTurn = .emit next events complete) :
    Step codec next events complete := by
  unfold headTurn at turn
  split at turn
  · simp only [failTurn] at turn
    split at turn <;> cases turn
  · rename_i marker found
    obtain ⟨block, rest, buffer, rfl, delimited⟩ := findSub_eq_some_iff_exists.mp found
    have taken : codec.buffer.drop (block.length + 4) = rest := by simp [buffer]
    have given : codec.buffer.take block.length = block := by simp [buffer]
    rw [taken, given] at turn
    split at turn
    · cases turn
    · rename_i bound
      split at turn
      · cases turn
      · rename_i head parsed
        simp only at turn
        split at turn
        · rename_i empty
          obtain ⟨nothing, rfl, rfl, rfl⟩ := finishTurn_eq_emit_iff.mp turn
          rw [enterBody_buffer] at nothing
          subst nothing
          rw [enterBody_finalEmpty empty]
          exact .headOnly state (by simpa [doubleCrlf] using buffer) delimited (by omega) parsed empty
        · rename_i more
          cases turn
          exact .head state buffer delimited (by omega) parsed more

theorem Step.of_fixedBodyTurn {codec next : Http1UpstreamCodec} {events : List UpstreamEvent}
    {complete : Bool}
    (state : codec.state = .fixedBody) (turn : codec.fixedBodyTurn = .emit next events complete) :
    Step codec next events complete := by
  unfold fixedBodyTurn at turn
  split at turn
  · cases turn
  · rename_i nonempty
    by_cases short : codec.buffer.length < codec.remaining
    · have all : min codec.remaining codec.buffer.length = codec.buffer.length := by omega
      simp only [all, show codec.remaining - codec.buffer.length ≠ 0 by omega, if_false, nonempty,
        List.drop_length, List.take_length] at turn
      cases turn
      exact .fixedPart state nonempty short
    · have all : min codec.remaining codec.buffer.length = codec.remaining := by omega
      simp only [all, Nat.sub_self, if_true] at turn
      obtain ⟨nothing, rfl, rfl, rfl⟩ := finishTurn_eq_emit_iff.mp turn
      have same : codec.buffer.length = codec.remaining := by
        have := List.drop_eq_nil_iff.mp nothing
        omega
      have step := Step.fixedLast state nonempty same
      simpa [finished, ← same, nonempty] using step

theorem Step.of_chunkSizeTurn {codec next : Http1UpstreamCodec} {events : List UpstreamEvent}
    {complete : Bool}
    (state : codec.state = .chunkSize) (turn : codec.chunkSizeTurn = .emit next events complete) :
    Step codec next events complete := by
  unfold chunkSizeTurn at turn
  simp only [failTurn] at turn
  split at turn
  · split at turn <;> cases turn
  · rename_i marker found
    obtain ⟨line, rest, buffer, rfl, delimited⟩ := findSub_eq_some_iff_exists.mp found
    have taken : codec.buffer.drop (line.length + 2) = rest := by simp [buffer]
    have given : codec.buffer.take line.length = line := by simp [buffer]
    rw [taken, given] at turn
    split at turn
    · cases turn
    · split at turn
      · cases turn
      · rename_i size parsed
        have parsed := asProxyError_eq_ok_iff.mp parsed
        split at turn
        · cases turn
        · split at turn
          · cases turn
          · split at turn
            · cases turn
              subst size
              exact .lastChunk state buffer delimited (by omega) parsed (by omega) (by omega)
            · cases turn
              exact .chunkSize state buffer delimited (by omega) parsed (by omega) (by omega) (by omega)

theorem Step.of_chunkDataTurn {codec next : Http1UpstreamCodec} {events : List UpstreamEvent}
    {complete : Bool}
    (state : codec.state = .chunkData) (turn : codec.chunkDataTurn = .emit next events complete) :
    Step codec next events complete := by
  unfold chunkDataTurn at turn
  split at turn
  · cases turn
  · rename_i nonempty
    by_cases short : codec.buffer.length < codec.remaining
    · have all : min codec.remaining codec.buffer.length = codec.buffer.length := by omega
      simp only [all, show codec.remaining - codec.buffer.length ≠ 0 by omega, if_false, nonempty,
        List.drop_length, List.take_length] at turn
      cases turn
      exact .chunkPart state nonempty short
    · have all : min codec.remaining codec.buffer.length = codec.remaining := by omega
      simp only [all, Nat.sub_self, if_true] at turn
      cases turn
      exact .chunkLast state nonempty (List.take_append_drop _ _).symm (by simp; omega)

theorem Step.of_chunkCrlfTurn {codec next : Http1UpstreamCodec} {events : List UpstreamEvent}
    {complete : Bool}
    (state : codec.state = .chunkCrlf) (turn : codec.chunkCrlfTurn = .emit next events complete) :
    Step codec next events complete := by
  unfold chunkCrlfTurn at turn
  simp only [failTurn] at turn
  split at turn
  · cases turn
  · split at turn
    · cases turn
    · rename_i ending
      cases turn
      have ending : codec.buffer.take 2 = crlf := by simpa using ending
      exact .chunkCrlf state (by rw [← ending, List.take_append_drop])

theorem Step.of_trailersTurn {codec next : Http1UpstreamCodec} {events : List UpstreamEvent}
    {complete : Bool}
    (state : codec.state = .trailers) (turn : codec.trailersTurn = .emit next events complete) :
    Step codec next events complete := by
  unfold trailersTurn at turn
  simp only [failTurn] at turn
  split at turn
  · rename_i here
    obtain ⟨rest, buffer⟩ := here
    obtain ⟨nothing, rfl, rfl, rfl⟩ := finishTurn_eq_emit_iff.mp turn
    rw [← buffer] at nothing
    simp only [crlf, List.cons_append, List.nil_append, List.drop_succ_cons, List.drop_zero] at nothing
    subst nothing
    exact .noTrailers state (by simpa using buffer.symm)
  · rename_i absent
    split at turn
    · split at turn <;> cases turn
    · rename_i marker found
      obtain ⟨block, rest, buffer, rfl, delimited⟩ := findSub_eq_some_iff_exists.mp found
      have taken : codec.buffer.drop (block.length + 4) = rest := by simp [buffer]
      have given : codec.buffer.take block.length = block := by simp [buffer]
      rw [taken, given] at turn
      split at turn
      · cases turn
      · split at turn
        · cases turn
        · rename_i trailers parsed
          have parsed := asProxyError_eq_ok_iff.mp parsed
          split at turn
          · cases turn
          · rename_i allowed
            obtain ⟨nothing, rfl, rfl, rfl⟩ := finishTurn_eq_emit_iff.mp turn
            simp only at nothing
            subst nothing
            have whole : codec.buffer = block ++ doubleCrlf := by simpa [doubleCrlf] using buffer
            exact .trailers state whole delimited (by rwa [whole] at absent) (by omega) parsed
              (by simpa using allowed)

theorem Step.of_untilEofTurn {codec next : Http1UpstreamCodec} {events : List UpstreamEvent}
    {complete : Bool}
    (state : codec.state = .untilEof) (turn : codec.untilEofTurn = .emit next events complete) :
    Step codec next events complete := by
  unfold untilEofTurn at turn
  simp only [failTurn] at turn
  split at turn
  · cases turn
  · rename_i nonempty
    split at turn
    · cases turn
    · rename_i bound
      cases turn
      exact .untilEof state nonempty (by omega)

theorem Step.turn {codec next : Http1UpstreamCodec} {events : List UpstreamEvent} {complete : Bool}
    (step : Step codec next events complete) : codec.turn = .emit next events complete := by
  cases step with
  | @head block rest head state buffer delimited bound parsed more =>
    have found : findDoubleCrlf codec.buffer = some block.length :=
      findSub_eq_some_iff_exists.mpr ⟨block, rest, buffer, rfl, delimited⟩
    have taken : codec.buffer.drop (block.length + 4) = rest := by simp [buffer, doubleCrlf]
    have given : codec.buffer.take block.length = block := by simp [buffer]
    simp only [state] at more
    simp only [Http1UpstreamCodec.turn, state, headTurn, found, Int.not_lt.mpr bound, if_false, taken,
      given, parsed, more]
  | @headOnly block head state buffer delimited bound parsed empty =>
    have found : findDoubleCrlf codec.buffer = some block.length :=
      findSub_eq_some_iff_exists.mpr ⟨block, [], by simpa [doubleCrlf] using buffer, rfl, delimited⟩
    have taken : codec.buffer.drop (block.length + 4) = [] := by simp [buffer, doubleCrlf]
    have given : codec.buffer.take block.length = block := by simp [buffer]
    simp only [state] at empty
    simp only [Http1UpstreamCodec.turn, state, headTurn, found, Int.not_lt.mpr bound, if_false, taken,
      given, parsed, empty, if_true]
    rw [finishTurn_eq_emit_iff]
    exact ⟨enterBody_buffer _ _, by simp [finished, enterBody_finalEmpty empty], rfl, rfl⟩
  | fixedPart state nonempty short =>
    have all : min codec.remaining codec.buffer.length = codec.buffer.length := by omega
    simp [Http1UpstreamCodec.turn, state, fixedBodyTurn, nonempty, all,
      show codec.remaining - codec.buffer.length ≠ 0 by omega]
  | fixedLast state nonempty same =>
    simp [Http1UpstreamCodec.turn, state, fixedBodyTurn, nonempty, ← same, finishTurn_eq_emit_iff, finished]
  | @chunkSize line rest size state buffer delimited short parsed positive chunkBound bodyBound =>
    have found : findCrlf codec.buffer = some line.length :=
      findSub_eq_some_iff_exists.mpr ⟨line, rest, buffer, rfl, delimited⟩
    have taken : codec.buffer.drop (line.length + 2) = rest := by simp [buffer, crlf]
    have given : codec.buffer.take line.length = line := by simp [buffer]
    simp only [Http1UpstreamCodec.turn, state, chunkSizeTurn, found, not_lt.mpr short, if_false,
      taken, given, gt_iff_lt,
      asProxyError_eq_ok_iff.mpr parsed, Int.not_lt.mpr chunkBound, Int.not_lt.mpr bodyBound,
      show size ≠ 0 by omega]
  | @lastChunk line rest state buffer delimited short parsed chunkBound bodyBound =>
    have found : findCrlf codec.buffer = some line.length :=
      findSub_eq_some_iff_exists.mpr ⟨line, rest, buffer, rfl, delimited⟩
    have taken : codec.buffer.drop (line.length + 2) = rest := by simp [buffer, crlf]
    have given : codec.buffer.take line.length = line := by simp [buffer]
    simp only [Http1UpstreamCodec.turn, state, chunkSizeTurn, found, not_lt.mpr short, if_false,
      taken, given, gt_iff_lt,
      asProxyError_eq_ok_iff.mpr parsed, Int.natCast_zero, Nat.add_zero, Int.not_lt.mpr chunkBound,
      Int.not_lt.mpr bodyBound, if_true]
  | chunkPart state nonempty short =>
    have all : min codec.remaining codec.buffer.length = codec.buffer.length := by omega
    simp [Http1UpstreamCodec.turn, state, chunkDataTurn, nonempty, all,
      show codec.remaining - codec.buffer.length ≠ 0 by omega]
  | @chunkLast data rest state nonempty buffer length =>
    have all : min codec.remaining codec.buffer.length = codec.remaining := by simp [buffer]; omega
    have taken : codec.buffer.drop codec.remaining = rest := by simp [buffer, ← length]
    have given : codec.buffer.take codec.remaining = data := by simp [buffer, ← length]
    simp only [Http1UpstreamCodec.turn, state, chunkDataTurn, nonempty, all, Nat.sub_self, if_true,
      if_false, taken, given]
  | @chunkCrlf rest state buffer =>
    have long : ¬ codec.buffer.length < 2 := by simp [buffer, crlf]
    have ending : codec.buffer.take 2 = crlf := by simp [buffer, crlf]
    have taken : codec.buffer.drop 2 = rest := by simp [buffer, crlf]
    simp only [Http1UpstreamCodec.turn, state, chunkCrlfTurn, long, if_false, ending, ne_eq,
      not_true_eq_false, taken]
  | noTrailers state buffer =>
    have here : crlf <+: codec.buffer := buffer ▸ List.prefix_rfl
    simp only [Http1UpstreamCodec.turn, state, trailersTurn, here, if_true]
    rw [finishTurn_eq_emit_iff]
    exact ⟨by simp [buffer, crlf], by simp [finished], rfl, rfl⟩
  | @trailers block trailers state buffer delimited noBlank bound parsed allowed =>
    have absent : ¬ crlf <+: codec.buffer := by rwa [buffer]
    have found : findDoubleCrlf codec.buffer = some block.length :=
      findSub_eq_some_iff_exists.mpr ⟨block, [], by simpa [doubleCrlf] using buffer, rfl, delimited⟩
    have taken : codec.buffer.drop (block.length + 4) = [] := by simp [buffer, doubleCrlf]
    have given : codec.buffer.take block.length = block := by simp [buffer]
    simp only [Http1UpstreamCodec.turn, state, trailersTurn, absent, if_false, found,
      Int.not_lt.mpr bound, taken, given,
      asProxyError_eq_ok_iff.mpr parsed, allowed, Bool.false_eq_true]
    rw [finishTurn_eq_emit_iff]
    exact ⟨rfl, rfl, rfl, rfl⟩
  | untilEof state nonempty bound =>
    simp only [Http1UpstreamCodec.turn, state, untilEofTurn, nonempty, if_false, gt_iff_lt,
      Int.not_lt.mpr bound]

/-- What one turn can do, said once. -/
theorem turn_eq_emit_iff {codec next : Http1UpstreamCodec} {events : List UpstreamEvent} {complete : Bool} :
    codec.turn = .emit next events complete ↔ Step codec next events complete := by
  constructor
  · intro run
    unfold Http1UpstreamCodec.turn at run
    split at run <;> rename_i state
    · exact .of_headTurn state run
    · cases run
    · exact .of_fixedBodyTurn state run
    · exact .of_chunkSizeTurn state run
    · exact .of_chunkDataTurn state run
    · exact .of_chunkCrlfTurn state run
    · exact .of_trailersTurn state run
    · exact .of_untilEofTurn state run
    · cases run
  · exact Step.turn

end Http1UpstreamCodec
end PccGateway
