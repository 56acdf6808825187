import PccGateway.Http1.ResponseEncoder
import PccGateway.Http1.WholeMessage

namespace PccGateway
open Search

/-- A field section behind the last chunk is a trailer section. -/
theorem trailerSection_fieldSection {maxHeaderBytes maxHeaderCount : Int} {trailers : List Header}
    (valid : ∀ header ∈ trailers, WireField header)
    (bytes : (((fieldSection trailers ++ crlf).length : Nat) : Int) ≤ maxHeaderBytes)
    (count : (trailers.length : Int) ≤ maxHeaderCount) :
    TrailerSection maxHeaderBytes maxHeaderCount (fieldSection trailers ++ crlf)
      (trailers.map readField) := by
  cases trailers with
  | nil => exact .none
  | cons first rest =>
    have clean : CleanLines (headerLine first :: rest.map headerLine) := headerLines_clean valid
    have shape : fieldSection (first :: rest) ++ crlf =
        crlf.intercalate (headerLine first :: rest.map headerLine) ++ doubleCrlf := by
      rw [← fieldSection_lines]
      rfl
    rw [shape] at bytes ⊢
    refine .fields (delimited_lines clean) ?_ ?_ ?_
    · -- the section starts with a field name
      obtain ⟨b, more, start⟩ := List.exists_cons_of_ne_nil (clean.nonempty (headerLine first) (by simp))
      have notReturn : b ≠ 13 :=
        fun same => clean.noReturn (headerLine first) (by simp) (by simp [start, same])
      rintro ⟨after, same⟩
      rw [← shape] at same
      simp [fieldSection, start, crlf] at same
      exact notReturn same.1.symm
    · simpa [doubleCrlf] using bytes
    · rw [splitCrlf_lines (by simp) clean.noReturn]
      exact parseHeaders_headerLines valid count

theorem ChunkedBody.data_length_le (body : ChunkedBody) : body.data.length ≤ body.wire.length := by
  obtain ⟨chunks, lastLine, trailerWire, trailers⟩ := body
  induction chunks with
  | nil => simp [data]
  | cons chunk chunks ih =>
    rw [data_cons, wire_cons, List.length_append, List.length_append]
    have own : chunk.data.length ≤ chunk.wire.length := by
      simp only [Chunk.wire, List.length_append]
      omega
    omega

/-- A body as an encoder frames it: piece by piece in chunks, or as it is. -/
def bodyWire (chunked : Bool) (pieces : List Bytes) : Bytes :=
  if chunked then (pieces.map Http1ResponseEncoder.chunk).flatten else pieces.flatten

theorem bodyWire_append (chunked : Bool) (pieces more : List Bytes) :
    bodyWire chunked (pieces ++ more) = bodyWire chunked pieces ++ bodyWire chunked more := by
  cases chunked <;> simp [bodyWire]

/-- The chunk that both encoders write for a piece. -/
def encodedChunk (data : Bytes) : Chunk := ⟨(hexadecimal data.length).map charByte, data⟩

/-- The chunked body that both encoders write. A piece without bytes is no chunk. -/
def encodedBody (pieces : List Bytes) (trailers : List Header) : ChunkedBody where
  chunks := (pieces.filter (· ≠ [])).map encodedChunk
  lastLine := ascii "0"
  trailerWire := fieldSection trailers ++ crlf
  trailers := trailers.map readField

theorem encodedBody_data (pieces : List Bytes) (trailers : List Header) :
    (encodedBody pieces trailers).data = pieces.flatten := by
  have datas : (fun data => (encodedChunk data).data) = id := rfl
  simp only [ChunkedBody.data, encodedBody, List.map_map, Function.comp_def, datas, List.map_id]
  exact List.flatten_filter_ne_nil

theorem encodedBody_wire (pieces : List Bytes) (trailers : List Header) :
    (encodedBody pieces trailers).wire =
      (pieces.map Http1ResponseEncoder.chunk).flatten ++
      (ascii "0" ++ crlf ++ fieldSection trailers ++ crlf) := by
  have chunks : (((pieces.filter (· ≠ [])).map encodedChunk).map Chunk.wire).flatten =
      (pieces.map Http1ResponseEncoder.chunk).flatten := by
    induction pieces with
    | nil => rfl
    | cons piece pieces ih =>
      by_cases empty : piece = []
      · simpa [empty, Http1ResponseEncoder.chunk] using ih
      · simp only [List.filter_cons, empty, ne_eq, not_false_eq_true, decide_true, if_true, List.map_cons,
          List.flatten_cons, ← ih]
        simp [Http1ResponseEncoder.chunk, empty, Chunk.wire, encodedChunk]
  simp only [ChunkedBody.wire, encodedBody, chunks, List.append_assoc]

theorem sizeLine_zero : SizeLine (ascii "0") 0 := by
  have line := @sizeLine_hexadecimal 0 (by decide)
  exact line

/-- Under limits that admit its bytes an encoded body is a valid one. -/
theorem encodedBody_valid {limits : BodyLimits} {pieces : List Bytes} {trailers : List Header}
    (sized : ∀ piece ∈ pieces, piece.length < 2 ^ 63) (valid : ∀ header ∈ trailers, WireField header)
    (admits : limits.Admits (encodedBody pieces trailers).wire.length) :
    (encodedBody pieces trailers).Valid limits := by
  have total := encodedBody_data pieces trailers
  have length : pieces.flatten.length ≤ (encodedBody pieces trailers).wire.length ∧
      (fieldSection trailers ++ crlf).length ≤ (encodedBody pieces trailers).wire.length := by
    have data := (encodedBody pieces trailers).data_length_le
    refine ⟨total ▸ data, ?_⟩
    rw [encodedBody_wire]
    simp only [List.length_append]
    omega
  have count := length_le_fieldSection trailers
  refine ⟨?_, ?_, sizeLine_zero, ?_, ?_⟩
  · intro chunk member
    obtain ⟨data, listed, rfl⟩ := List.mem_map.mp member
    obtain ⟨inside, filled⟩ := List.mem_filter.mp listed
    have small := sized data inside
    have part : data.length ≤ pieces.flatten.length := (List.sublist_flatten_of_mem inside).length_le
    have := admits.chunkBytes
    refine ⟨sizeLine_hexadecimal (by omega), ?_, ?_⟩
    · simpa [encodedChunk] using filled
    · simp only [encodedChunk]
      omega
  · have := admits.bodyBytes
    rw [total]
    omega
  · have := admits.chunkBytes
    omega
  · have := admits.headerBytes
    have := admits.headerCount
    rw [List.length_append] at length
    exact trailerSection_fieldSection valid (by rw [List.length_append]; omega) (by omega)

end PccGateway
