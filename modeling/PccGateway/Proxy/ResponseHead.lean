import PccGateway.Proxy.RequestHead
import PccGateway.Proxy.UpstreamRun

namespace PccGateway
open Search

namespace Http1ResponseEncoder

theorem validateOutputHeader_eq_ok {name value : Text} {nameBytes valueBytes : Bytes}
    (run : validateOutputHeader name value = .ok (nameBytes, valueBytes)) :
    WireField (name, value) ∧ nameBytes = name.map charByte ∧ valueBytes = value.map charByte := by
  simp only [validateOutputHeader, bind_eq_ok, latin1Bytes] at run
  obtain ⟨bytes, latin, run⟩ := run
  split at latin
  · rename_i data encoded
    cases latin
    have valueText := encodeLatin1_eq_some_iff.mp encoded
    split at run
    · cases run
    · rename_i token found
      simp only [tokenBytes, Option.filter_eq_some_iff] at found
      obtain ⟨ascii, isTok⟩ := found
      have nameText := encodeAscii_latin1 ascii
      obtain ⟨clean, result⟩ := ite_raiseHttp1_eq_ok.mp run
      cases result
      refine ⟨⟨?_, ?_, ?_, ?_⟩, ?_, ?_⟩
      · simp [nameText]
      · simpa [nameText] using isTok
      · simp [valueText]
      · simpa [valueText] using clean
      · simp [nameText]
      · simp [valueText]
  · cases latin

/-- The field loop writes a field section, or raises. -/
theorem fields_eq_ok {owned : List String} {code message : String} {headers : List Header} {data : Bytes}
    (run : fields owned code message headers = .ok data) :
    data = fieldSection headers ∧ ∀ header ∈ headers,
      WireField header ∧ lower header.1 ∉ owned.map String.toList := by
  induction headers generalizing data with
  | nil =>
    cases run
    simp [fieldSection]
  | cons header headers ih =>
    simp only [fields, bind_eq_ok, ite_raiseHttp1_eq_ok] at run
    obtain ⟨⟨nameBytes, valueBytes⟩, validated, free, more, moreRun, result⟩ := run
    obtain ⟨wire, rfl, rfl⟩ := validateOutputHeader_eq_ok validated
    obtain ⟨rfl, valid⟩ := ih moreRun
    cases result
    refine ⟨by simp [fieldSection, headerLine], ?_⟩
    intro other member
    rcases List.mem_cons.mp member with rfl | listed
    · exact ⟨wire, free⟩
    · exact valid other listed

/-- The framing fields that `head` adds. -/
def framingFields (contentLength : Int) (chunked : Bool) : List Header :=
  (if 0 ≤ contentLength then [("Content-Length".toList, decimal contentLength.toNat)] else []) ++
    (if chunked then [("Transfer-Encoding".toList, "chunked".toList)] else [])

def statusLine (status : Nat) : Bytes :=
  ascii "HTTP/1.1 " ++ (decimal status).map charByte ++ ascii " " ++ ascii (reasonPhrase status)

/-- The persistence field that `head` adds. -/
def connectionFields (keepAlive : Bool) : List Header :=
  if keepAlive then [] else [("Connection".toList, "close".toList)]

theorem head_display {status : Nat} {headers : List Header} {contentLength : Int}
    {chunked keepAlive : Bool} {data : Bytes}
    (run : head status headers contentLength chunked keepAlive = .ok data) :
    ¬ (0 ≤ contentLength ∧ chunked = true) ∧
      (∀ header ∈ headers, WireField header ∧
        lower header.1 ∉ ["content-length", "transfer-encoding", "connection"].map String.toList) ∧
      data = statusLine status ++ crlf ++
        fieldSection (headers ++ framingFields contentLength chunked ++ connectionFields keepAlive) ++
          crlf := by
  unfold head at run
  split at run
  · cases run
  · rename_i single
    simp only [bind_eq_ok] at run
    obtain ⟨lines, linesRun, result⟩ := run
    obtain ⟨rfl, valid⟩ := fields_eq_ok linesRun
    cases result
    refine ⟨single, valid, ?_⟩
    have framing : fieldSection (framingFields contentLength chunked) =
        (if 0 ≤ contentLength then ascii "Content-Length: " ++
          (decimal contentLength.toNat).map charByte ++ crlf else []) ++
          (if chunked then ascii "Transfer-Encoding: chunked" ++ crlf else []) := by
      unfold framingFields
      split <;> cases chunked <;> rfl
    have persistence : fieldSection (connectionFields keepAlive) =
        (if keepAlive then [] else ascii "Connection: close" ++ crlf) := by cases keepAlive <;> rfl
    have split : fieldSection
        (headers ++ framingFields contentLength chunked ++ connectionFields keepAlive) =
        fieldSection headers ++ fieldSection (framingFields contentLength chunked) ++
          fieldSection (connectionFields keepAlive) := by simp [fieldSection]
    rw [split, framing, persistence]
    simp [statusLine]

/-- The framing fields as they are read back. -/
def readFraming (contentLength : Int) (chunked : Bool) : List Header :=
  (if 0 ≤ contentLength then [("content-length".toList, decimal contentLength.toNat)] else []) ++
    (if chunked then [("transfer-encoding".toList, "chunked".toList)] else [])

theorem framingFields_wire (contentLength : Int) (chunked : Bool) :
    (∀ header ∈ framingFields contentLength chunked, WireField header) ∧
      (framingFields contentLength chunked).map readField = readFraming contentLength chunked := by
  obtain ⟨text, clean, kept⟩ := decimal_value contentLength.toNat
  have length : WireField ("Content-Length".toList, decimal contentLength.toNat) ∧
      readField ("Content-Length".toList, decimal contentLength.toNat) =
        ("content-length".toList, decimal contentLength.toNat) :=
    ⟨⟨rfl, rfl, text, clean⟩, Prod.ext rfl kept⟩
  have coding : WireField ("Transfer-Encoding".toList, "chunked".toList) ∧
      readField ("Transfer-Encoding".toList, "chunked".toList) =
        ("transfer-encoding".toList, "chunked".toList) :=
    ⟨⟨rfl, rfl, rfl, rfl⟩, rfl⟩
  unfold framingFields readFraming
  refine ⟨?_, ?_⟩
  · intro header member
    rcases List.mem_append.mp member with listed | listed <;> split at listed
    · rw [List.mem_singleton.mp listed]
      exact length.1
    · simp at listed
    · rw [List.mem_singleton.mp listed]
      exact coding.1
    · simp at listed
  · rw [List.map_append]
    congr 1 <;> split
    · rw [List.map_singleton, length.2]
    · rfl
    · rw [List.map_singleton, coding.2]
    · rfl

theorem reasonPhrase_clean (status : Nat) : containsBadValueByte (ascii (reasonPhrase status)) = false := by
  unfold reasonPhrase
  split <;> decide

theorem decimal_status {status : Nat} (range : 100 ≤ status ∧ status ≤ 999) :
    (decimal status).length = 3 := by
  have three : (decimal status).length ≤ 3 ↔ status < 10 ^ 3 :=
    Nat.length_toDigits_le_iff (by decide) (by decide)
  have two : (decimal status).length ≤ 2 ↔ status < 10 ^ 2 :=
    Nat.length_toDigits_le_iff (by decide) (by decide)
  omega

theorem digitByte_plain : ∀ digit < 10, charByte digit.digitChar ≠ 32 ∧ charByte digit.digitChar ≠ 13 ∧
    (charByte digit.digitChar < 48 || 57 < charByte digit.digitChar) = false := by decide

theorem decimalByte_plain {n : Nat} {b : UInt8} (member : b ∈ (decimal n).map charByte) :
    b ≠ 32 ∧ b ≠ 13 ∧ (b < 48 || 57 < b) = false := by
  obtain ⟨c, listed, rfl⟩ := List.mem_map.mp member
  obtain ⟨digit, bound, rfl⟩ := decimal_isDigit listed
  exact digitByte_plain digit bound

/-- The status line that the encoder writes is read back. -/
theorem parseStatusLine_encoded {status : Nat} (range : 100 ≤ status ∧ status ≤ 999) :
    parseStatusLine (statusLine status) = .ok (.http11, status, ascii (reasonPhrase status)) := by
  have pieces : splitStatusLine (statusLine status) =
      [ascii "HTTP/1.1", (decimal status).map charByte, ascii (reasonPhrase status)] := by
    have shape : statusLine status =
        ascii "HTTP/1.1" ++ 32 :: ((decimal status).map charByte ++ 32 :: ascii (reasonPhrase status)) := by
      simp [statusLine, ascii, charByte]
    have version : ∀ b ∈ ascii "HTTP/1.1", (b != 32) = true := by decide +kernel
    have digits : ∀ b ∈ (decimal status).map charByte, (b != 32) = true := by
      intro b member
      simpa using (decimalByte_plain member).1
    unfold splitStatusLine
    rw [shape, List.dropWhile_append_of_pos version, List.takeWhile_append_of_pos version]
    simp only [List.dropWhile_cons, bne_self_eq_false, Bool.false_eq_true, if_false,
      List.takeWhile_cons, List.append_nil]
    rw [List.dropWhile_append_of_pos digits, List.takeWhile_append_of_pos digits]
    simp only [List.dropWhile_cons, bne_self_eq_false, Bool.false_eq_true, if_false,
      List.takeWhile_cons, List.append_nil]
  have length : ((decimal status).map charByte).length = 3 := by rw [List.length_map, decimal_status range]
  have digits : ((decimal status).map charByte).any (fun value => value < 48 || 57 < value) = false := by
    simp only [List.any_eq_false, Bool.not_eq_true]
    intro b member
    exact (decimalByte_plain member).2.2
  have value : ((decimal status).map charByte).foldl
      (fun total digit => total * 10 + (digit.toNat - 48)) 0 = status := by
    rw [foldl_charByte (fun c member => (decimal_plain member).1), foldl_decimal]
  unfold parseStatusLine
  rw [if_neg (by simp [statusLine, ascii]), pieces]
  simp only [length, digits, value, List.headD_cons, reasonPhrase_clean, ne_eq, not_true_eq_false,
    and_false, if_false, Bool.false_eq_true, if_true, show ¬ (status < 100 ∨ 999 < status) by omega]

theorem responseContentLength_decimal {maxBodyBytes : Int} {headers : List Header} {n : Nat}
    (single : fieldValues headers "content-length" = [decimal n]) (short : (decimal n).length ≤ 4300)
    (bound : (n : Int) ≤ maxBodyBytes) : responseContentLength maxBodyBytes headers = .ok n := by
  obtain ⟨noComma, nonempty, digits⟩ := decimal_digits n
  unfold responseContentLength
  rw [single]
  simp only [noComma, nonempty, or_self, Bool.false_eq_true, if_false, digits, parseDecimal_decimal short]
  simp [bind, Except.bind, Int.not_lt.mpr bound]
  rfl

/-- The persistence field as it is read back. -/
def readPersistence (keepAlive : Bool) : List Header :=
  if keepAlive then [] else [("connection".toList, "close".toList)]

theorem connectionFields_wire (keepAlive : Bool) :
    (∀ header ∈ connectionFields keepAlive, WireField header) ∧
      (connectionFields keepAlive).map readField = readPersistence keepAlive := by
  cases keepAlive with
  | true => exact ⟨nofun, rfl⟩
  | false =>
    refine ⟨fun header member => ?_, rfl⟩
    rw [List.mem_singleton.mp member]
    exact ⟨rfl, rfl, rfl, rfl⟩

/-- A handler's fields, as they are read back, with those that the encoder adds. -/
def readHead (headers : List Header) (contentLength : Int) (chunked keepAlive : Bool) : List Header :=
  headers.map readField ++ readFraming contentLength chunked ++ readPersistence keepAlive

/-- The fields that the encoder keeps for itself are read back as it wrote them. -/
theorem fieldValues_readHead {headers : List Header} (contentLength : Int) (chunked keepAlive : Bool)
    (foreign : ∀ header ∈ headers,
      lower header.1 ∉ ["content-length", "transfer-encoding", "connection"].map String.toList) :
    fieldValues (readHead headers contentLength chunked keepAlive) "content-length" =
        (if 0 ≤ contentLength then [decimal contentLength.toNat] else []) ∧
      fieldValues (readHead headers contentLength chunked keepAlive) "transfer-encoding" =
        (if chunked then ["chunked".toList] else []) := by
  have none (name : String) (owned : name ∈ ["content-length", "transfer-encoding", "connection"]) :
      fieldValues (headers.map readField) name = [] := by
    unfold fieldValues
    rw [List.map_eq_nil_iff, List.filter_eq_nil_iff]
    intro field member same
    obtain ⟨header, listed, rfl⟩ := List.mem_map.mp member
    exact foreign header listed (List.mem_map.mpr ⟨name, owned, (decide_eq_true_eq.mp same).symm⟩)
  have length : fieldValues (readFraming contentLength chunked) "content-length" =
      if 0 ≤ contentLength then [decimal contentLength.toNat] else [] := by
    unfold readFraming
    split <;> cases chunked <;> rfl
  have coding : fieldValues (readFraming contentLength chunked) "transfer-encoding" =
      if chunked then ["chunked".toList] else [] := by
    unfold readFraming
    split <;> cases chunked <;> rfl
  have persistence (name : String) (other : name = "content-length" ∨ name = "transfer-encoding") :
      fieldValues (readPersistence keepAlive) name = [] := by
    rcases other with rfl | rfl <;> cases keepAlive <;> rfl
  unfold readHead
  simp only [fieldValues_append, none _ (by simp : "content-length" ∈ _),
    none _ (by simp : "transfer-encoding" ∈ _), length,
    coding, persistence _ (.inl rfl), persistence _ (.inr rfl), List.nil_append, List.append_nil, and_self]

/-- An encoded head is one head block for the response codec. -/
theorem head_read {method : Text} {limits : BodyLimits} {status : Nat} {headers : List Header}
    {contentLength : Int} {chunked keepAlive : Bool} {data : Bytes}
    (run : head status headers contentLength chunked keepAlive = .ok data)
    (range : 100 ≤ status ∧ status ≤ 999) (supported : status ≠ 101) (known : -1 ≤ contentLength)
    (short : (decimal contentLength.toNat).length ≤ 4300) (bound : contentLength ≤ limits.maxBodyBytes)
    (admits : limits.Admits data.length) :
    ∃ block, data = block ++ doubleCrlf ∧ Delimited doubleCrlf block ∧
      ((block.length + 4 : Nat) : Int) ≤ limits.maxHeaderBytes ∧
      parseResponseHead method limits block =
        .ok (responseHead method .http11 status (ascii (reasonPhrase status))
        (readHead headers contentLength chunked keepAlive) contentLength chunked) := by
  obtain ⟨single, fieldsValid, dataEq⟩ := head_display run
  obtain ⟨framingValid, framingRead⟩ := framingFields_wire contentLength chunked
  obtain ⟨connectionValid, connectionRead⟩ := connectionFields_wire keepAlive
  have valid : ∀ header ∈ headers ++ framingFields contentLength chunked ++
      connectionFields keepAlive, WireField header := by
    intro header member
    rcases List.mem_append.mp member with listed | listed
    · rcases List.mem_append.mp listed with listed | listed
      · exact (fieldsValid header listed).1
      · exact framingValid header listed
    · exact connectionValid header listed
  have lineClean : statusLine status ≠ [] ∧ (13 : UInt8) ∉ statusLine status := by
    refine ⟨by simp [statusLine, ascii], ?_⟩
    simp only [statusLine, List.mem_append, not_or]
    refine ⟨⟨⟨by decide, fun member => (decimalByte_plain member).2.1 rfl⟩, by decide⟩, ?_⟩
    exact containsBadValueByte_not_mem (reasonPhrase_clean status) (by decide)
  have clean := CleanLines.cons lineClean.1 lineClean.2 (headerLines_clean valid)
  have wireEq := dataEq.trans (fieldSection_lines (statusLine status) _)
  have split := splitCrlf_lines (by simp) clean.noReturn
  have count : (headers ++ framingFields contentLength chunked ++ connectionFields keepAlive).length ≤
      data.length := by
    have fields := length_le_fieldSection
      (headers ++ framingFields contentLength chunked ++ connectionFields keepAlive)
    have total := congrArg List.length dataEq
    rw [List.length_append, List.length_append] at total
    omega
  obtain ⟨lengths, codings⟩ := fieldValues_readHead contentLength chunked keepAlive fun header
    member => (fieldsValid header member).2
  refine ⟨_, wireEq, delimited_lines clean, ?_, parseResponseHead_eq_ok_iff.mpr
    ⟨.http11, status, _, _, contentLength, chunked, ?_, ?_, ?_, ?_, supported, rfl⟩⟩
  · have := admits.headerBytes
    rw [wireEq, List.length_append] at this
    exact this
  · rw [split]
    exact parseStatusLine_encoded range
  · rw [split]
    have := admits.headerCount
    have read := @parseHeaders_headerLines limits.maxHeaderCount _ valid (by omega)
    simp only [List.map_append, framingRead, connectionRead] at read
    simp only [List.map_append]
    exact read
  · by_cases present : 0 ≤ contentLength
    · rw [if_pos present] at lengths
      have natural : ((contentLength.toNat : Nat) : Int) = contentLength := by omega
      simpa [natural] using responseContentLength_decimal lengths short (by omega : _ ≤ limits.maxBodyBytes)
    · rw [if_neg present] at lengths
      obtain rfl : contentLength = -1 := by omega
      unfold responseContentLength
      rw [lengths]
  · refine responseChunked_eq_ok_iff.mpr ?_
    cases chunked
    · exact .inl ⟨by simp [hasField, codings], rfl⟩
    · refine .inr ⟨by simp [hasField, codings], by simpa using single, ?_, rfl⟩
      simp only [fieldTokens, codings, if_true]
      decide

/-- One whose fields were read before reads them back as they are. -/
theorem head_block {method : Text} {limits : BodyLimits} {status : Nat} {headers : List Header}
    {contentLength : Int}
    {chunked : Bool} {data : Bytes} (run : head status headers contentLength chunked = .ok data)
    (range : 100 ≤ status ∧ status ≤ 999) (supported : status ≠ 101)
    (plain : headers.map readField = headers)
    (known : -1 ≤ contentLength) (short : (decimal contentLength.toNat).length ≤ 4300)
    (bound : contentLength ≤ limits.maxBodyBytes) (admits : limits.Admits data.length) :
    ∃ block, data = block ++ doubleCrlf ∧ Delimited doubleCrlf block ∧
      ((block.length + 4 : Nat) : Int) ≤ limits.maxHeaderBytes ∧
      parseResponseHead method limits block =
        .ok (responseHead method .http11 status (ascii (reasonPhrase status))
        (headers ++ readFraming contentLength chunked) contentLength chunked) := by
  have same : readHead headers contentLength chunked true =
      headers ++ readFraming contentLength chunked := by
    rw [readHead, plain, readPersistence, if_pos rfl, List.append_nil]
  rw [← same]
  exact head_read run range supported known short bound admits

end Http1ResponseEncoder

/-- What a head of the response codec is known to be. -/
structure SoundHead (method : Text) (limits : BodyLimits) (head : UpstreamResponseHead) : Prop where
  range : 100 ≤ head.status ∧ head.status ≤ 999
  supported : head.status ≠ 101
  fields : ∀ header ∈ head.headers, ParsedField header
  known : -1 ≤ head.contentLength
  short : (decimal head.contentLength.toNat).length ≤ 4300
  bound : 0 ≤ head.contentLength → head.contentLength ≤ limits.maxBodyBytes
  coded : head.chunked = true → head.contentLength = -1
  informational : head.informational = (decide (100 ≤ head.status ∧ head.status < 200))
  bodyExpected : head.bodyExpected = decide (¬ (method = "HEAD".toList ∨
    (100 ≤ head.status ∧ head.status < 200) ∨ head.status = 204 ∨ head.status = 304))

theorem parseStatusLine_range {line reason : Bytes} {version : Version} {status : Nat}
    (run : parseStatusLine line = .ok (version, status, reason)) : 100 ≤ status ∧ status ≤ 999 := by
  unfold parseStatusLine at run
  simp only [ite_raiseProxy_eq_ok] at run
  obtain ⟨_, run⟩ := run
  split at run
  · simp only [ite_raiseProxy_eq_ok] at run
    obtain ⟨_, _, _, _, range, result⟩ := run
    cases result
    omega
  · cases run

theorem responseContentLength_range {maxBodyBytes length : Int} {headers : List Header}
    (run : responseContentLength maxBodyBytes headers = .ok length) :
    -1 ≤ length ∧ (0 ≤ length → length ≤ maxBodyBytes) ∧ (decimal length.toNat).length ≤ 4300 := by
  unfold responseContentLength at run
  split at run
  · cases run
    exact ⟨by omega, by omega, by decide⟩
  · rename_i raw present
    simp only [ite_raiseProxy_eq_ok, bind_eq_ok] at run
    obtain ⟨_, decimals, value, parsed, bound, result⟩ := run
    cases result
    exact ⟨by omega, by omega, parseDecimal_short (by simpa using decimals) parsed⟩
  · cases run

theorem ParsedHead.sound {method : Text} {limits : BodyLimits} {head : UpstreamResponseHead}
    (parsed : ParsedHead method limits head) : SoundHead method limits head := by
  obtain ⟨block, run⟩ := parsed
  obtain ⟨version, status, reason, headers, length, chunked, line, fields, lengthRun, coding,
    supported, rfl⟩ :=
    parseResponseHead_eq_ok_iff.mp run
  obtain ⟨known, bound, short⟩ := responseContentLength_range lengthRun
  refine ⟨parseStatusLine_range line, supported, parseHeaders_fields fields, known, short, bound,
    ?_, rfl, rfl⟩
  rintro rfl
  rcases responseChunked_eq_ok_iff.mp coding with ⟨_, plain⟩ | ⟨_, negative, _⟩
  · cases plain
  · simp only [responseHead]
    omega

end PccGateway
