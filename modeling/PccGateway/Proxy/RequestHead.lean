import PccGateway.Http1.WholeMessage
import PccGateway.Proxy.Exchange

namespace PccGateway

theorem encoded_encodeAscii {text : Text} {data : Bytes} (run : encoded (encodeAscii text) = .ok data) :
    data = text.map charByte ∧ latin1Text (text.map charByte) = text := by
  unfold encoded at run
  split at run
  · rename_i some found
    cases run
    have latin := encodeAscii_latin1 found
    rw [latin, map_charByte_latin1Text]
    exact ⟨rfl, rfl⟩
  · cases run

theorem encoded_encodeLatin1 {text : Text} {data : Bytes} (run : encoded (encodeLatin1 text) = .ok data) :
    data = text.map charByte ∧ latin1Text (text.map charByte) = text := by
  unfold encoded at run
  split at run
  · rename_i some found
    cases run
    rw [encodeLatin1_eq_some_iff.mp found, map_charByte_latin1Text]
    exact ⟨rfl, rfl⟩
  · cases run

theorem proxyRequestFields_eq_ok {headers : List Header} {data : Bytes}
    (run : proxyRequestFields headers = .ok data) :
    (∀ header ∈ headers, WireField header) ∧ data = fieldSection headers := by
  induction headers generalizing data with
  | nil =>
    cases run
    simp [fieldSection]
  | cons header headers ih =>
    simp only [proxyRequestFields, bind_eq_ok, ite_raiseProxy_eq_ok, not_or] at run
    obtain ⟨nameBytes, nameRun, valueBytes, valueRun, ⟨token, clean⟩, more, moreRun, result⟩ := run
    obtain ⟨rfl, nameText⟩ := encoded_encodeAscii nameRun
    obtain ⟨rfl, valueText⟩ := encoded_encodeLatin1 valueRun
    obtain ⟨valid, rfl⟩ := ih moreRun
    cases result
    refine ⟨?_, by simp [fieldSection, headerLine]⟩
    intro other member
    rcases List.mem_cons.mp member with rfl | listed
    · exact ⟨nameText, by simpa using token, valueText, by simpa using clean⟩
    · exact valid other listed

/-- The field that frames the request on the way to the upstream. -/
def framingField (contentLength : Int) (chunked : Bool) : Header :=
  if chunked then ("transfer-encoding".toList, "chunked".toList)
  else ("content-length".toList, decimal contentLength.toNat)

/-- What an encoded head is made of. -/
structure EncodedHead (method target : Text) (headers : List Header) (contentLength : Int) (chunked : Bool)
    (wire : Bytes) : Prop where
  method_eq : latin1Text (method.map charByte) = method
  method_token : isToken (method.map charByte) = true
  target_eq : latin1Text (target.map charByte) = target
  target_clean : (target.map charByte).any (fun value => value ≤ 32 || value == 127) = false
  framed : chunked = true ↔ contentLength < 0
  fields : ∀ header ∈ headers, WireField header
  wire_eq : wire = method.map charByte ++ ascii " " ++ target.map charByte ++ ascii " HTTP/1.1" ++ crlf ++
    fieldSection (headers ++ [framingField contentLength chunked]) ++ crlf

theorem encodeProxyRequestHead_eq_ok {method target : Text} {headers : List Header}
    {upstreamAuthority clientIp scheme originalHost : Text} {contentLength : Int}
    {chunked trustForwarded expectContinueHandled : Bool} {wire : Bytes}
    (run : encodeProxyRequestHead method target headers upstreamAuthority clientIp scheme originalHost
      contentLength
      chunked trustForwarded expectContinueHandled = .ok wire) :
    EncodedHead method target
      (proxyRequestHeaders headers upstreamAuthority clientIp scheme originalHost trustForwarded
      expectContinueHandled) contentLength chunked wire := by
  simp only [encodeProxyRequestHead, bind_eq_ok, ite_raiseProxy_eq_ok, not_or] at run
  obtain ⟨methodBytes, methodRun, targetBytes, targetRun, ⟨token, _⟩, clean, _, known, single,
    fields, fieldsRun, result⟩ := run
  obtain ⟨rfl, methodText⟩ := encoded_encodeAscii methodRun
  obtain ⟨rfl, targetText⟩ := encoded_encodeLatin1 targetRun
  obtain ⟨valid, rfl⟩ := proxyRequestFields_eq_ok fieldsRun
  cases result
  refine ⟨methodText, by simpa using token, targetText, by simpa using clean, ?_, valid, ?_⟩
  · cases chunked <;> simp_all
  · have framing : (if chunked = true then ascii "transfer-encoding: chunked"
        else ascii "content-length: " ++ (decimal contentLength.toNat).map charByte) =
        headerLine (framingField contentLength chunked) := by
      cases chunked <;> rfl
    rw [framing]
    simp [fieldSection]

theorem framingField_wire (contentLength : Int) (chunked : Bool) :
    WireField (framingField contentLength chunked) ∧
      readField (framingField contentLength chunked) = framingField contentLength chunked := by
  cases chunked
  · obtain ⟨text, clean, kept⟩ := decimal_value contentLength.toNat
    exact ⟨⟨rfl, rfl, text, clean⟩, Prod.ext rfl kept⟩
  · exact ⟨⟨rfl, rfl, rfl, rfl⟩, rfl⟩

/-- The request line that `encode_proxy_request_head` writes is read back. -/
theorem parseRequestLine_encoded {maxRequestLine : Int} {method target : Bytes}
    (token : isToken method = true)
    (origin : target.head? = some 47) (clean : target.any (fun value => value ≤ 32 || value == 127) = false)
    (bound : ((method ++ ascii " " ++ target ++ ascii " HTTP/1.1").length : Int) ≤ maxRequestLine) :
    parseRequestLine maxRequestLine (method ++ ascii " " ++ target ++ ascii " HTTP/1.1") =
      .ok (method, target, .http11) := by
  have noControl {b : UInt8} (control : b ≤ 32) : b ∉ target := by
    intro member
    have := List.any_eq_false.mp clean b member
    simp [control] at this
  have noTab : (9 : UInt8) ∉ method ++ ascii " " ++ target ++ ascii " HTTP/1.1" := by
    simp only [List.mem_append, not_or]
    exact ⟨⟨⟨isToken_not_mem token (by decide), by decide⟩, noControl (by decide)⟩, by decide⟩
  have pieces : (method ++ ascii " " ++ target ++ ascii " HTTP/1.1").splitOn 32 =
      [method, target, ascii "HTTP/1.1"] := by
    have shape : method ++ ascii " " ++ target ++ ascii " HTTP/1.1" = method ++ 32 ::
        (target ++ 32 :: ascii "HTTP/1.1") := by
      simp [ascii, charByte]
    rw [shape, List.splitOn_append_cons_self_of_not_mem (isToken_not_mem token (by decide)),
      List.splitOn_append_cons_self_of_not_mem (noControl (by decide)), List.splitOn_eq_singleton
        (by decide)]
  have nonempty : target ≠ [] := by
    rintro rfl
    cases origin
  unfold parseRequestLine
  rw [pieces, if_neg (by simp [ascii]), if_neg (by omega), if_neg (by simpa using noTab)]
  simp only [token, Bool.not_true, Bool.false_eq_true, if_false, nonempty, origin, ne_eq,
    not_true_eq_false, clean, if_true]

theorem fieldValues_framingField (contentLength : Int) (chunked : Bool) :
    fieldValues [framingField contentLength chunked] "content-length" =
        (if chunked then [] else [decimal contentLength.toNat]) ∧
      fieldValues [framingField contentLength chunked] "transfer-encoding" =
        (if chunked then ["chunked".toList] else []) ∧
      fieldValues [framingField contentLength chunked] "host" = [] ∧
      fieldValues [framingField contentLength chunked] "expect" = [] := by
  cases chunked
  · exact ⟨rfl, rfl, rfl, rfl⟩
  · exact ⟨rfl, rfl, rfl, rfl⟩

theorem requestContentLength_decimal {maxBodyBytes : Int} {headers : List Header} {n : Nat}
    (single : fieldValues headers "content-length" = [decimal n]) (short : (decimal n).length ≤ 4300)
    (bound : (n : Int) ≤ maxBodyBytes) : requestContentLength maxBodyBytes headers = .ok n := by
  obtain ⟨noComma, nonempty, digits⟩ := decimal_digits n
  unfold requestContentLength
  rw [single]
  simp only [noComma, Bool.false_eq_true, if_false, nonempty, digits, parseDecimal_decimal short]
  simp [bind, Except.bind, Int.not_lt.mpr bound]
  rfl

/-- A length that was read from a field has no more digits than `int` accepts. -/
theorem parseDecimal_short {digits : Text} {n : Nat} (valid : ∀ c ∈ digits, '0' ≤ c ∧ c ≤ '9')
    (run : parseDecimal digits = .ok n) : (decimal n).length ≤ 4300 := by
  unfold parseDecimal at run
  split at run
  · cases run
  · rename_i short
    cases run
    have bound := foldl_digits_lt valid 0
    refine (Nat.length_toDigits_le_iff (by decide) (by decide)).mpr (Nat.lt_of_lt_of_le bound ?_)
    rw [Nat.zero_add, Nat.one_mul]
    exact Nat.pow_le_pow_right (by decide) (by omega)

theorem requestContentLength_short {maxBodyBytes length : Int} {headers : List Header}
    (run : requestContentLength maxBodyBytes headers = .ok length) :
    (decimal length.toNat).length ≤ 4300 := by
  unfold requestContentLength at run
  split at run
  · cases run
    decide
  · rename_i raw present
    simp only [ite_raiseHttp1_eq_ok, bind_eq_ok] at run
    obtain ⟨_, _, decimals, value, parsed, _, result⟩ := run
    cases result
    exact parseDecimal_short (by simpa using decimals) parsed
  · simp [raiseHttp1] at run

theorem parseRequestHead_length {limits : CodecLimits} {block : Bytes} {head : RequestHead}
    (run : parseRequestHead limits block = .ok head) :
    (decimal head.contentLength.toNat).length ≤ 4300 ∧ (head.chunked = true → head.contentLength = -1) := by
  obtain ⟨method, target, version, headers, length, chunked, expectation, _, _, _, lengthRun,
    coding, _, rfl⟩ :=
    parseRequestHead_eq_ok_iff.mp run
  have short := requestContentLength_short lengthRun
  have range := requestContentLength_range lengthRun
  refine ⟨?_, ?_⟩
  · simp only
    split
    · exact short
    · have zero : length.toNat = 0 := by omega
      rwa [zero] at short
  · rintro rfl
    have coded := requestChunked_eq_ok_iff.mp coding
    simp only [true_or, if_true]
    rcases coded with ⟨_, plain⟩ | ⟨_, negative, _⟩
    · cases plain
    · omega

/-- Fields that leave the framing to the encoder, with one `Host`. -/
structure Unframed (headers : List Header) (authority : Text) (expectContinue : Bool) : Prop where
  host : fieldValues headers "host" = [authority]
  noLength : fieldValues headers "content-length" = []
  noCoding : fieldValues headers "transfer-encoding" = []
  expects : requestExpectContinue headers = .ok expectContinue

theorem requestExpectContinue_congr {first second : List Header}
    (same : fieldValues first "expect" = fieldValues second "expect") :
    requestExpectContinue first = requestExpectContinue second := by
  unfold requestExpectContinue hasField fieldTokens
  rw [same]

/-- The head that the receiver of an encoded head decodes. -/
def receivedHead (method target : Text) (headers : List Header) (contentLength : Int)
    (chunked expectContinue : Bool) :
    RequestHead :=
  let all := headers ++ [framingField contentLength chunked]
  { method := method
    target := target
    version := .http11
    headers := all
    keepAlive := connectionKeepAlive .http11 all
    expectContinue := expectContinue
    contentLength := if chunked then -1 else contentLength
    chunked := chunked }

/-- An encoded head is one head block for the server codec. -/
theorem EncodedHead.headBlock {limits : CodecLimits} {method target authority : Text}
    {headers : List Header} {contentLength : Int} {chunked expectContinue : Bool} {wire : Bytes}
    (encoded : EncodedHead method target headers contentLength chunked wire)
    (origin : target.head? = some '/')
    (unframed : Unframed (headers.map readField) authority expectContinue)
    (short : (decimal contentLength.toNat).length ≤ 4300) (bound : contentLength ≤ limits.maxBodyBytes)
    (admits : limits.Admits wire.length) : ∃ block, wire = block ++ doubleCrlf ∧
      HeadBlock limits block
        (receivedHead method target (headers.map readField) contentLength chunked expectContinue) := by
  obtain ⟨framingWire, framingRead⟩ := framingField_wire contentLength chunked
  obtain ⟨lengthField, codingField, noHost, noExpect⟩ := fieldValues_framingField contentLength chunked
  have valid : ∀ header ∈ headers ++ [framingField contentLength chunked], WireField header := by
    intro header member
    rcases List.mem_append.mp member with listed | last
    · exact encoded.fields header listed
    · rw [List.mem_singleton.mp last]
      exact framingWire
  let line := method.map charByte ++ ascii " " ++ target.map charByte ++ ascii " HTTP/1.1"
  let lines := (headers ++ [framingField contentLength chunked]).map headerLine
  have wireEq : wire = crlf.intercalate (line :: lines) ++ doubleCrlf :=
    encoded.wire_eq.trans (fieldSection_lines line _)
  have targetByte : (target.map charByte).head? = some 47 := by
    rw [List.head?_map, origin]
    rfl
  have lineClean : line ≠ [] ∧ (13 : UInt8) ∉ line := by
    refine ⟨by simp [line, ascii], ?_⟩
    simp only [line, List.mem_append, not_or]
    refine ⟨⟨⟨isToken_not_mem encoded.method_token (by decide), by decide⟩, ?_⟩, by decide⟩
    intro member
    have := List.any_eq_false.mp encoded.target_clean 13 member
    simp at this
  have clean : CleanLines (line :: lines) := .cons lineClean.1 lineClean.2 (headerLines_clean valid)
  have sizes : line.length ≤ wire.length ∧ (headers ++ [framingField contentLength chunked]).length ≤
      wire.length := by
    have count := length_le_fieldSection (headers ++ [framingField contentLength chunked])
    have total := congrArg List.length encoded.wire_eq
    simp only [line, List.length_append] at total count ⊢
    omega
  have split : splitCrlf (crlf.intercalate (line :: lines)) = line :: lines :=
    splitCrlf_lines (by simp) clean.noReturn
  refine ⟨_, wireEq, delimited_lines clean, ?_, ?_⟩
  · have := admits.headerBytes
    rw [wireEq, List.length_append] at this
    exact this
  · refine parseRequestHead_eq_ok_iff.mpr ⟨method.map charByte, target.map charByte, .http11,
      headers.map readField ++ [framingField contentLength chunked], if chunked then
        -1 else contentLength, chunked, expectContinue, ?_, ?_, ?_, ?_, ?_, ?_, ?_⟩
    · rw [split]
      have := admits.requestLine
      exact parseRequestLine_encoded encoded.method_token targetByte encoded.target_clean
        (by simp only [line] at sizes; omega)
    · rw [split]
      have := admits.headerCount
      have read := @parseHeaders_headerLines limits.maxHeaderCount _ valid (by omega)
      rw [show (headers ++ [framingField contentLength chunked]).map readField =
        headers.map readField ++ [framingField contentLength chunked] by simp [framingRead]] at read
      exact read
    · simp [checkHost, hasField, fieldValues_append, unframed.host, noHost]
    · cases chunked
      · have nonneg : 0 ≤ contentLength := by simpa using encoded.framed
        have natural : ((contentLength.toNat : Nat) : Int) = contentLength := by omega
        have single : fieldValues (headers.map readField ++ [framingField contentLength false])
            "content-length" = [decimal contentLength.toNat] := by
          rw [fieldValues_append, unframed.noLength, lengthField]
          rfl
        simpa [natural] using requestContentLength_decimal single short (by omega : _ ≤ limits.maxBodyBytes)
      · simp [requestContentLength, fieldValues_append, unframed.noLength, lengthField]
    · have framed := encoded.framed
      refine requestChunked_eq_ok_iff.mpr ?_
      cases chunked
      · exact .inl ⟨by simp [hasField, fieldValues_append, unframed.noCoding, codingField], rfl⟩
      · refine .inr ⟨by simp [hasField, fieldValues_append, unframed.noCoding, codingField],
          by simp, ?_, rfl⟩
        simp only [fieldTokens, fieldValues_append, unframed.noCoding, codingField, if_true]
        decide
    · refine Eq.trans (requestExpectContinue_congr ?_) unframed.expects
      rw [fieldValues_append, noExpect, List.append_nil]
    · have kept : chunked = true ∨ 0 ≤ (if chunked then -1 else contentLength : Int) := by
        have framed := encoded.framed
        cases chunked
        · exact .inr (by simpa using framed)
        · exact .inl rfl
      simp only [receivedHead, encoded.method_eq, encoded.target_eq, kept, if_true]

theorem fieldValues_filter (headers : List Header) (keep : Text → Bool) (name : String) :
    fieldValues (headers.filter fun header => keep header.1) name =
      if keep name.toList then fieldValues headers name else [] := by
  unfold fieldValues
  rw [List.filter_filter]
  split
  · rename_i kept
    congr 1
    refine List.filter_congr fun header _ => ?_
    by_cases named : header.1 = name.toList <;> simp [named, kept]
  · rename_i dropped
    rw [List.filter_eq_nil_iff.mpr, List.map_nil]
    intro header _ both
    simp only [Bool.and_eq_true, decide_eq_true_eq] at both
    exact dropped (both.1 ▸ both.2)

/-- On names in lower case `sanitize_hop_by_hop` only drops fields. -/
theorem sanitizeHopByHop_parsed {headers : List Header} (parsed : ∀ header ∈ headers, ParsedField header) :
    sanitizeHopByHop headers =
      headers.filter fun header => header.1 ∉ hopByHop ∧ header.1 ∉ connectionNamedFields headers := by
  unfold sanitizeHopByHop
  simp only
  generalize connectionNamedFields headers = named
  induction headers with
  | nil => rfl
  | cons header headers ih =>
    have lowered : lower header.1 = header.1 := congrArg Prod.fst (parsed header (by simp)).wire.2
    rw [List.filterMap_cons, List.filter_cons, ih fun other member => parsed other (by simp [member])]
    by_cases dropped : header.1 ∈ hopByHop ∨ header.1 ∈ named
    · have gone : ¬ (header.1 ∉ hopByHop ∧ header.1 ∉ named) := by tauto
      simp [lowered, dropped, gone]
    · have kept : header.1 ∉ hopByHop ∧ header.1 ∉ named := by tauto
      simp [lowered, kept]

theorem sanitizeHopByHop_subset {headers : List Header} (parsed : ∀ header ∈ headers, ParsedField header) :
    ∀ header ∈ sanitizeHopByHop headers, ParsedField header := by
  intro header member
  rw [sanitizeHopByHop_parsed parsed] at member
  exact parsed header (List.mem_filter.mp member).1

def forwardedNames : List Text :=
  ["x-forwarded-for".toList, "x-forwarded-proto".toList, "x-forwarded-host".toList]

theorem forwardedLoop_kept (trustIncoming : Bool) (headers kept : List Header) (incomingFor : Text) :
    (forwardedLoop trustIncoming headers (kept, incomingFor)).1 =
      kept ++ headers.filter fun header =>
        header.1 ∉ forwardedNames ∨ trustIncoming ∧ header.1 = "x-forwarded-for".toList := by
  induction headers generalizing kept incomingFor with
  | nil => rw [forwardedLoop, List.filter_nil, List.append_nil]
  | cons header headers ih =>
    obtain ⟨name, value⟩ := header
    have listed : name ∈ forwardedNames ↔
        name = "x-forwarded-for".toList ∨ name = "x-forwarded-proto".toList ∨ name =
          "x-forwarded-host".toList := by
      simp only [forwardedNames, List.mem_cons, List.not_mem_nil, or_false]
    unfold forwardedLoop
    rw [List.filter_cons]
    generalize "x-forwarded-for".toList = forName at *
    by_cases rewritten : name ∈ forwardedNames
    · rw [if_pos (listed.mp rewritten)]
      by_cases trusted : trustIncoming = true ∧ name = forName
      · obtain ⟨rfl, rfl⟩ := trusted
        simp [ih]
      · have dropped : trustIncoming = false ∨ name ≠ forName := by
          cases trustIncoming <;> simp_all
        simp only [dropped, if_true, ih, rewritten, not_true_eq_false, trusted, false_or,
          decide_false, Bool.false_eq_true, if_false]
    · rw [if_neg (listed.not.mp rewritten)]
      simp [ih, rewritten]

/-- The three fields that the gateway adds. -/
def forwardedFields (chain scheme originalHost : Text) : List Header :=
  [("x-forwarded-for".toList, chain), ("x-forwarded-proto".toList, scheme),
    ("x-forwarded-host".toList, originalHost)]

/-- The names that do not carry over from the original request. -/
def rewrittenNames : List Text :=
  ["host".toList, "content-length".toList, "transfer-encoding".toList] ++ forwardedNames

/-- Which of the original names the gateway forwards. -/
def forwardsName (named : List Text) (trustForwarded expectContinueHandled : Bool) (name : Text) : Bool :=
  (name ∉ hopByHop ∧ name ∉ named) ∧
    (name ∉ forwardedNames ∨ trustForwarded ∧ name = "x-forwarded-for".toList) ∧
    ¬ (name ∈ ["host".toList, "content-length".toList, "transfer-encoding".toList] ∨
      expectContinueHandled ∧ name = "expect".toList)

theorem proxyRequestHeaders_parsed {headers : List Header} (parsed : ∀ header ∈ headers, ParsedField header)
    (upstreamAuthority clientIp scheme originalHost : Text) (trustForwarded expectContinueHandled : Bool) :
    ∃ chain, proxyRequestHeaders headers upstreamAuthority clientIp scheme originalHost trustForwarded
        expectContinueHandled =
      ("host".toList, upstreamAuthority) ::
        (headers.filter (fun header =>
            forwardsName (connectionNamedFields headers) trustForwarded expectContinueHandled header.1) ++
          forwardedFields chain scheme originalHost) := by
  obtain ⟨chain, forwarded⟩ : ∃ chain, forwardedRequestHeaders headers clientIp scheme originalHost
      trustForwarded = (forwardedLoop trustForwarded (sanitizeHopByHop headers) ([], [])).1 ++
        forwardedFields chain scheme originalHost := ⟨_, rfl⟩
  refine ⟨chain, ?_⟩
  unfold proxyRequestHeaders
  congr 1
  rw [forwarded, forwardedLoop_kept, sanitizeHopByHop_parsed parsed, List.nil_append, List.filter_append,
    List.filter_filter, List.filter_filter]
  congr 1
  · refine List.filter_congr fun header member => ?_
    have lowered : lower header.1 = header.1 := congrArg Prod.fst (parsed header member).wire.2
    rw [lowered, forwardsName, Bool.eq_iff_iff]
    simp only [Bool.and_eq_true, decide_eq_true_eq]
    tauto
  · refine List.filter_eq_self.mpr fun header member => ?_
    simp only [forwardedFields, List.mem_cons, List.not_mem_nil, or_false] at member
    rcases member with rfl | rfl | rfl <;> cases expectContinueHandled <;> rfl

theorem forwardsName_framing (named : List Text) (trustForwarded expectContinueHandled : Bool) {name : Text}
    (framing : name ∈ ["host".toList, "content-length".toList, "transfer-encoding".toList]) :
    forwardsName named trustForwarded expectContinueHandled name = false := by
  simp only [forwardsName, framing, true_or, not_true_eq_false, and_false, decide_false]

/-- The fields of a decoded request, as the upstream reads them: the authority is the only `Host`, the
framing is left to the encoder, and what is not rewritten is the sanitised original. -/
theorem proxyRequestHeaders_received {limits : CodecLimits} {block : Bytes} {head : RequestHead}
    (decoded : parseRequestHead limits block = .ok head) {upstreamAuthority : Text}
    (trimmed : Trimmed isOws upstreamAuthority) (clientIp scheme originalHost : Text)
    (trustForwarded expectContinueHandled : Bool) :
    let received := (proxyRequestHeaders head.headers upstreamAuthority clientIp scheme originalHost
      trustForwarded
      expectContinueHandled).map readField
    (∃ expectContinue, Unframed received upstreamAuthority expectContinue) ∧
      received.filter (fun header => header.1 ∉ rewrittenNames) =
        (sanitizeHopByHop head.headers).filter fun header =>
          header.1 ∉ rewrittenNames ∧ ¬ (expectContinueHandled ∧ header.1 = "expect".toList) := by
  obtain ⟨method, target, version, headers, length, chunked, expectation, _, fields, _, _, _,
    expectRun, rfl⟩ :=
    parseRequestHead_eq_ok_iff.mp decoded
  have parsed := parseHeaders_fields fields
  obtain ⟨chain, shape⟩ := proxyRequestHeaders_parsed parsed upstreamAuthority clientIp scheme originalHost
    trustForwarded expectContinueHandled
  let keep := forwardsName (connectionNamedFields headers) trustForwarded expectContinueHandled
  let added : List Header := forwardedFields (stripOws chain) (stripOws scheme) (stripOws originalHost)
  have received : (proxyRequestHeaders headers upstreamAuthority clientIp scheme originalHost trustForwarded
      expectContinueHandled).map readField =
      ("host".toList, upstreamAuthority) :: (headers.filter (fun header => keep header.1) ++ added) := by
    have same : (headers.filter fun header => keep header.1).map readField =
        headers.filter fun header => keep header.1 := by
      refine (List.map_congr_left fun header member => ?_).trans (List.map_id _)
      exact (parsed header (List.mem_filter.mp member).1).wire.2
    rw [shape, List.map_cons, List.map_append, same]
    exact congrArg₂ _ (Prod.ext (by decide : lower "host".toList = "host".toList)
      (stripOws_trimmed trimmed)) rfl
  have values (name : String) : fieldValues (("host".toList, upstreamAuthority) ::
        (headers.filter (fun header => keep header.1) ++ added)) name =
      fieldValues [("host".toList, upstreamAuthority)] name ++
        ((if keep name.toList then fieldValues headers name else []) ++ fieldValues added name) := by
    rw [← fieldValues_filter, ← fieldValues_append, ← fieldValues_append]
    rfl
  have off {name : Text}
    (framing : name ∈ ["host".toList, "content-length".toList, "transfer-encoding".toList]) :
      keep name = false := forwardsName_framing _ _ _ framing
  simp only [received]
  refine ⟨?_, ?_⟩
  · obtain ⟨expectContinue, expects⟩ : ∃ expectContinue,
        requestExpectContinue (("host".toList, upstreamAuthority) ::
        (headers.filter (fun header => keep header.1) ++ added)) = .ok expectContinue := by
      cases kept : keep "expect".toList with
      | false =>
        refine ⟨false, Eq.trans (@requestExpectContinue_congr _ [] ?_) rfl⟩
        rw [values, kept]
        rfl
      | true =>
        refine ⟨expectation, Eq.trans (requestExpectContinue_congr ?_) expectRun⟩
        rw [values, kept]
        exact List.append_nil _
    refine ⟨expectContinue, ?_, ?_, ?_, expects⟩
    · rw [values, off (by simp)]
      rfl
    · rw [values, off (by simp)]
      rfl
    · rw [values, off (by simp)]
      rfl
  · have gone : added.filter (fun header => header.1 ∉ rewrittenNames) = [] := rfl
    rw [List.filter_cons_of_neg (by simp [rewrittenNames]), List.filter_append, gone, List.append_nil,
      sanitizeHopByHop_parsed parsed, List.filter_filter, List.filter_filter]
    refine List.filter_congr fun header _ => ?_
    rw [Bool.eq_iff_iff]
    simp only [keep, forwardsName, rewrittenNames, List.mem_append, Bool.and_eq_true, decide_eq_true_eq]
    tauto

end PccGateway
