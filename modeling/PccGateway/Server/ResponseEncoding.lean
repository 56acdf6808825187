import PccGateway.Proxy.ResponseTranslation
import PccGateway.Server.ResponseFraming

namespace PccGateway

/-- A field that is one line of a head and nothing more: its name a token, its value without control
bytes and in Latin-1. -/
def SafeField (header : Header) : Prop :=
  header.1 ≠ [] ∧ (∀ c ∈ header.1, c.toNat < 128 ∧ isTchar (charByte c) = true) ∧
    ∀ c ∈ header.2, c.toNat < 256 ∧ isBadValueByte (charByte c) = false

theorem WireField.safe {header : Header} (wire : WireField header) : SafeField header := by
  have latin (text : Text) (same : latin1Text (text.map charByte) = text) : ∀ c ∈ text, c.toNat ≤ 255 := by
    have all := latin1Text_all (text.map charByte)
    rw [same] at all
    simpa using all
  obtain ⟨nonempty, token⟩ : header.1 ≠ [] ∧ ∀ c ∈ header.1, isTchar (charByte c) = true := by
    simpa [isToken] using wire.token
  refine ⟨nonempty, fun c member => ⟨?_, token c member⟩, fun c member => ⟨?_, ?_⟩⟩
  · have small := (isTchar_lt (token c member)).1
    rw [toNat_charByte (latin header.1 wire.name_eq c member)] at small
    omega
  · exact Nat.lt_succ_of_le (latin header.2 wire.value_eq c member)
  · have clean := wire.clean
    simp only [containsBadValueByte, List.any_map, List.any_eq_false, Function.comp_apply,
      Bool.not_eq_true] at clean
    exact clean c member

namespace Http1ResponseEncoder

/-- The encoder raises nothing but an `Http1Error` about a field. -/
theorem validateOutputHeader_error {name value : Text} {error : Exn}
    (run : validateOutputHeader name value = .error error) :
    ∃ refused, error = .http1 refused := by
  unfold validateOutputHeader latin1Bytes at run
  split at run
  · simp only [bind, Except.bind] at run
    split at run
    · cases run
      exact ⟨_, rfl⟩
    · split at run
      · cases run
        exact ⟨_, rfl⟩
      · cases run
  · cases run
    exact ⟨_, rfl⟩

theorem fields_error {owned : List String} {code message : String} {headers : List Header} {error : Exn}
    (run : fields owned code message headers = .error error) : ∃ refused, error = .http1 refused := by
  induction headers with
  | nil => cases run
  | cons header headers ih =>
    unfold fields at run
    rcases bind_eq_error.mp run with refused | ⟨bytes, _, later⟩
    · exact validateOutputHeader_error refused
    · dsimp only at later
      split at later
      · cases later
        exact ⟨_, rfl⟩
      · rcases bind_eq_error.mp later with rest | ⟨more, _, returned⟩
        · exact ih rest
        · cases returned

/-- A field that is not safe is refused, whatever stands around it. -/
theorem head_refused {status : Nat} {headers : List Header} {contentLength : Int} {keepAlive : Bool}
    (unsafe_ : ∃ header ∈ headers, ¬ SafeField header) :
    ∃ refused, head status headers contentLength false keepAlive = .error (.http1 refused) := by
  cases run : head status headers contentLength false keepAlive with
  | ok data =>
    obtain ⟨header, member, bad⟩ := unsafe_
    exact absurd ((head_display run).2.1 header member).1.safe bad
  | error error =>
    unfold head at run
    split at run
    · rename_i both
      cases both.2
    · rcases bind_eq_error.mp run with stopped | ⟨lines, _, returned⟩
      · obtain ⟨refused, rfl⟩ := fields_error stopped
        exact ⟨refused, rfl⟩
      · cases returned

end Http1ResponseEncoder

/-- The body that is sent in answer to this method. -/
def Response.content (response : Response) (method : Text) (body : Bytes) : Bytes :=
  if response.withoutBody ∨ method = "HEAD".toList then [] else body

/-- The `Content-Length` that is sent, or none. -/
def Response.sentLength (response : Response) (body : Bytes) : Int :=
  if response.contentLengthForbidden then -1 else body.length

namespace GatewayConnection
open Http1UpstreamCodec Http1ResponseEncoder
open ProxyExchange (ReceivedBlock empty_steps fixed_steps)

/-- `keep_alive`. -/
def persists (connection : GatewayConnection) : Bool :=
  connection.currentKeepAlive && !connection.closeAfterFlush

/-- A response that is not streamed is a head and its content, or the encoder refuses one of its fields. -/
theorem responsePayload_run {response : Response} {body : Bytes} (method : Text)
    (whole : response.streaming = false)
    (encoded : response.body.encoded = .ok body) (connection : GatewayConnection) :
    responsePayload method response connection = lift
      ((Http1ResponseEncoder.head response.status response.ownHeaders (response.sentLength body) false
        connection.persists).map
        fun head => head ++ response.content method body) connection := by
  unfold responsePayload
  change (ite (response.streaming = true) (lift _ : Call Bytes) (lift response.body.encoded >>= _))
    connection = _
  rw [whole, if_neg Bool.false_ne_true, encoded]
  change (lift (Http1ResponseEncoder.head response.status response.ownHeaders
    (response.sentLength body) false
    connection.persists) >>= fun head => pure (if response.withoutBody ∨ method = "HEAD".toList then
      head else head ++ body)) connection = _
  cases Http1ResponseEncoder.head response.status response.ownHeaders (response.sentLength body) false
    connection.persists with
  | error error => rfl
  | ok head =>
    refine Prod.ext rfl (congrArg Except.ok ?_)
    unfold Response.content
    split
    · exact (List.append_nil head).symm
    · rfl

/-- A fresh codec for the same method decodes an encoded response to its content, and nothing is left. -/
theorem content_steps {method : Text} {receiver : UpstreamLimits} {response : Response}
    {body data : Bytes} {keepAlive : Bool}
    (encodes : Http1ResponseEncoder.head response.status response.ownHeaders
      (response.sentLength body) false keepAlive = .ok data)
    (size : body.length < 2 ^ 63) (admits : receiver.Admits (data.length + body.length)) :
    ∃ (done : Http1UpstreamCodec) (received : UpstreamResponseHead), decoder.Steps
        { requestMethod := method, limits := receiver, buffer := data ++ response.content method body } done
        (.responseHead received :: ((if response.content method body = [] then
          [] else [.responseBody (response.content method body)]) ++ [.responseEnd []])) ∧
      done.state = .complete ∧ done.complete = true ∧ done.buffer = [] ∧ received.informational = false ∧
      received.status = response.status ∧
      received.headers = readHead response.ownHeaders (response.sentLength body) false keepAlive := by
  obtain ⟨low, high⟩ := response.final
  have room := admits.bodyBytes
  have lengths : -1 ≤ response.sentLength body ∧ response.sentLength body ≤ body.length := by
    unfold Response.sentLength
    split <;> omega
  have short : (decimal (response.sentLength body).toNat).length ≤ 4300 := by
    have small : (response.sentLength body).toNat < 10 ^ 19 := by omega
    have few : (decimal (response.sentLength body).toNat).length ≤ 19 :=
      (Nat.length_toDigits_le_iff (by decide) (by decide)).mpr small
    omega
  obtain ⟨block, rfl, delimited, bytes, parsed⟩ := @head_read method _ _ _ _ _ _ _ encodes ⟨by omega,
    by omega⟩ (by omega) lengths.1
    short (by omega : _ ≤ receiver.maxBodyBytes) (admits.mono (by omega))
  have final : ¬ (100 ≤ response.status ∧ response.status < 200) := by omega
  have bare : response.withoutBody = true ↔ response.status = 204 ∨ response.status = 304 := by
    simp [Response.withoutBody, Response.contentLengthForbidden, final]
  generalize read : responseHead method .http11 response.status _ _ (response.sentLength body) false =
    received at parsed
  have informational : received.informational = false := by
    rw [← read]
    simpa [responseHead] using final
  have expected : received.bodyExpected = true ↔
      ¬ (response.withoutBody = true ∨ method = "HEAD".toList) := by
    rw [← read, bare]
    simp only [responseHead, final, false_or, decide_eq_true_eq]
    tauto
  have head : ReceivedBlock method receiver block received := ⟨delimited, bytes, parsed, informational⟩
  have same : received.contentLength = response.sentLength body := by rw [← read]; rfl
  have headers : received.headers =
      readHead response.ownHeaders (response.sentLength body) false keepAlive := by rw [← read]; rfl
  have status : received.status = response.status := by rw [← read]; rfl
  have counted (sent : ¬ (response.withoutBody = true ∨ method = "HEAD".toList)) :
      response.content method body = body ∧ response.sentLength body = body.length := by
    refine ⟨if_neg sent, if_neg fun forbidden => sent (.inl ?_)⟩
    simp [Response.withoutBody, forbidden]
  by_cases empty : response.content method body = []
  · have bare : received.bodyExpected = false ∨ received.contentLength = 0 := by
      by_cases sent : response.withoutBody = true ∨ method = "HEAD".toList
      · exact .inl (by simpa using mt expected.mp (not_not_intro sent))
      · obtain ⟨content, length⟩ := counted sent
        refine .inr ?_
        rw [same, length, ← content, empty]
        rfl
    rw [empty, if_pos rfl, List.append_nil]
    exact ⟨_, received, empty_steps head bare, rfl, rfl, rfl, informational, status, headers⟩
  · have sent : ¬ (response.withoutBody = true ∨ method = "HEAD".toList) := fun stopped =>
      empty (if_pos stopped)
    obtain ⟨content, length⟩ := counted sent
    rw [content] at empty ⊢
    obtain ⟨done, steps, state, complete, buffer⟩ :=
      fixed_steps head (expected.mpr sent) (by rw [← read]; rfl)
      (by rw [same, length]) empty
    rw [if_neg empty]
    exact ⟨done, received, steps, state, complete, buffer, informational, status, headers⟩

/-- What a whole response is on the wire. If it is encoded, a fresh codec for the same method with
large enough limits decodes it completely: the status, the handler's fields in their order with the
gateway's own behind them, and the content. If one of the handler's fields could be more than a line
of the head, it is not encoded. What is assumed is that the response is not streaming, and that its
body can be encoded and is shorter than what a length can count. Nothing is assumed about the state
of the connection, nor about the fields, which a handler may write as it likes. -/
theorem local_response_encoding (method : Text) (response : Response)
    (whole : response.streaming = false) (body : Bytes)
    (encoded : response.body.encoded = .ok body) (size : body.length < 2 ^ 63)
    (connection : GatewayConnection) :
    (∀ after payload, responsePayload (upper method) response connection = (after, .ok payload) →
      after = connection ∧ ∃ enough : Nat, ∀ receiver : UpstreamLimits, receiver.Admits enough →
        ∃ (done : Http1UpstreamCodec) (received : UpstreamResponseHead),
          feed { requestMethod := upper method, limits := receiver } payload =
            (done, .ok (.responseHead received ::
            ((if response.content (upper method) body = [] then
              [] else [.responseBody (response.content (upper method) body)]) ++
              [.responseEnd []]))) ∧
          done.complete = true ∧ done.buffer = [] ∧ received.informational = false ∧ received.status =
            response.status ∧
          received.headers =
            readHead response.ownHeaders (response.sentLength body) false connection.persists) ∧
    ((∃ header ∈ response.ownHeaders, ¬ SafeField header) →
      ∃ refused, responsePayload (upper method) response connection =
        (connection, .error (.raised (.http1 refused)))) := by
  rw [responsePayload_run (upper method) whole encoded connection]
  refine ⟨fun after payload run => ?_, fun unsafe_ => ?_⟩
  · cases encodes : Http1ResponseEncoder.head response.status response.ownHeaders
      (response.sentLength body) false
        connection.persists with
    | error error =>
      rw [encodes] at run
      cases run
    | ok data =>
      rw [encodes] at run
      cases run
      refine ⟨rfl, data.length + body.length, fun receiver admits => ?_⟩
      obtain ⟨done, received, steps, state, complete, buffer, rest⟩ :=
        @content_steps (upper method) receiver _ _ _ _ encodes size admits
      exact ⟨done, received, (feed_eq_ok_iff rfl rfl).mpr ⟨steps, by simp [turn, state]⟩, complete,
        buffer, rest⟩
  · obtain ⟨refused, failed⟩ :=
      @head_refused response.status _ (response.sentLength body) connection.persists unsafe_
    rw [failed]
    exact ⟨refused, rfl⟩

/-- A text with a header of its own and one that the gateway removes. -/
def greeting : Response where
  status := 201
  body := .text "hé".toList
  headers := [("X-Trace".toList, " a b\t".toList), ("Content-Length".toList, "9\r\n".toList)]
  streaming := false
  final := by decide

theorem local_response_encoding_greeting :
    responsePayload "POST".toList greeting (init {}) =
        (init {}, .ok (ascii "HTTP/1.1 201 Created\r\nX-Trace:  a b\t\r\nContent-Length: 3\r\n\r\n" ++
          [104, 195, 169])) ∧
      ∃ enough : Nat, ∀ receiver : UpstreamLimits, receiver.Admits enough →
        ∃ (done : Http1UpstreamCodec) (received : UpstreamResponseHead),
        feed { requestMethod := "POST".toList, limits := receiver }
            (ascii "HTTP/1.1 201 Created\r\nX-Trace:  a b\t\r\nContent-Length: 3\r\n\r\n" ++
              [104, 195, 169]) =
          (done, .ok [.responseHead received, .responseBody [104, 195, 169], .responseEnd []]) ∧
        received.headers = [("x-trace".toList, "a b".toList), ("content-length".toList, "3".toList)] := by
  have run : responsePayload (upper "post".toList) greeting (init {}) =
      (init {}, .ok (ascii "HTTP/1.1 201 Created\r\nX-Trace:  a b\t\r\nContent-Length: 3\r\n\r\n" ++
        [104, 195, 169])) := by
    rw [responsePayload_run _ rfl rfl]
    exact Prod.ext rfl (by decide)
  obtain ⟨-, enough, decodes⟩ :=
    (local_response_encoding "post".toList greeting rfl _ rfl (by decide) (init {})).1 _ _ run
  refine ⟨run, enough, fun receiver admits => ?_⟩
  obtain ⟨done, received, fed, _, _, _, _, headers⟩ := decodes receiver admits
  exact ⟨done, received, fed, headers.trans (by decide)⟩

end GatewayConnection

end PccGateway
