import PccGateway.Http1.ChunkedDecoding
import PccGateway.Http1.Fragmentation

namespace PccGateway
open Incremental

/-- Limits that a message of `bytes` bytes cannot exceed, whatever it holds. -/
structure BodyLimits.Admits (limits : BodyLimits) (bytes : Nat) : Prop where
  headerBytes : (bytes : Int) ≤ limits.maxHeaderBytes
  headerCount : (bytes : Int) ≤ limits.maxHeaderCount
  bodyBytes : (bytes : Int) ≤ limits.maxBodyBytes
  chunkBytes : (bytes : Int) ≤ limits.maxChunkBytes

structure CodecLimits.Admits (limits : CodecLimits) (bytes : Nat) :
    Prop extends limits.toBodyLimits.Admits bytes where
  requestLine : (bytes : Int) ≤ limits.maxRequestLine

theorem BodyLimits.Admits.mono {limits : BodyLimits} {bytes fewer : Nat} (admits : limits.Admits bytes)
    (less : fewer ≤ bytes) : limits.Admits fewer := by
  obtain ⟨headerBytes, headerCount, bodyBytes, chunkBytes⟩ := admits
  exact ⟨by omega, by omega, by omega, by omega⟩

theorem CodecLimits.Admits.mono {limits : CodecLimits} {bytes fewer : Nat} (admits : limits.Admits bytes)
    (less : fewer ≤ bytes) : limits.Admits fewer := by
  have line := admits.requestLine
  exact ⟨admits.toAdmits.mono less, by omega⟩

def MessageBody.trailers : MessageBody → List Header
  | .fixed _ => []
  | .chunked body => body.trailers

namespace Http1ServerCodec

theorem parseHead_of_headBlock {codec : Http1ServerCodec} {block : Bytes} {head : RequestHead}
    (headBlock : HeadBlock codec.limits block head) :
    codec.parseHead block = .ok ((codec.enterBody head).1, head, (codec.enterBody head).2) :=
  parseHead_eq_ok_iff.mpr ⟨headBlock.parsed, rfl⟩

/-- A request without a body ends with its head. -/
theorem empty_steps {limits : CodecLimits} {block : Bytes} {head : RequestHead}
    (headBlock : HeadBlock limits block head)
    (plain : head.chunked = false) (length : head.contentLength = 0) :
    decoder.Steps { limits := limits, buffer := block ++ doubleCrlf } { limits := limits }
      [.requestHead head, .requestEnd []] := by
  have entered : ({ limits := limits } : Http1ServerCodec).enterBody head =
      ({ limits := limits }, false) := by
    simp [enterBody, plain, length, resetMessage]
  have parsed := @parseHead_of_headBlock { limits := limits } _ _ headBlock
  rw [entered] at parsed
  exact (@Step.headOnly { limits := limits, buffer := block ++ doubleCrlf } _ block [] head rfl (by simp)
    headBlock.delimited headBlock.bound parsed).steps

/-- A body of fixed length that is there as a whole is delivered as a whole. -/
theorem fixed_steps {limits : CodecLimits} {block data : Bytes} {head : RequestHead}
    (headBlock : HeadBlock limits block head) (plain : head.chunked = false) (nonempty : data ≠ [])
    (length : (data.length : Int) = head.contentLength) :
    decoder.Steps { limits := limits, buffer := block ++ doubleCrlf ++ data } { limits := limits }
      [.requestHead head, .bodyChunk data, .requestEnd []] := by
  have positive := List.length_pos_iff.mpr nonempty
  let waiting : Http1ServerCodec :=
    { limits := limits, buffer := data, state := .fixedBody, remaining := data.length }
  have entered : ({ limits := limits, buffer := data } : Http1ServerCodec).enterBody head =
      (waiting, true) := by
    simp [enterBody, plain, ← length, positive, waiting]
  have parsed := @parseHead_of_headBlock { limits := limits, buffer := data } _ _ headBlock
  rw [entered] at parsed
  have first := @Step.headWithBody { limits := limits, buffer := block ++ doubleCrlf ++ data } _ block
    data head rfl
    rfl headBlock.delimited headBlock.bound parsed
  have last := @Step.fixedLast waiting data [] rfl nonempty (by simp [waiting]) rfl
  rw [if_neg nonempty] at last
  exact first.steps.trans last.steps

theorem chunked_steps {limits : CodecLimits} {block : Bytes} {head : RequestHead} {body : ChunkedBody}
    (headBlock : HeadBlock limits block head) (chunked : head.chunked = true)
    (valid : body.Valid limits.toBodyLimits)
    (allowed : forbiddenTrailers.any (hasField body.trailers) = false) :
    decoder.Steps { limits := limits, buffer := block ++ doubleCrlf ++ body.wire } { limits := limits }
      (.requestHead head :: body.chunks.map (fun chunk => .bodyChunk chunk.data) ++
        [.requestEnd body.trailers]) := by
  have parsed := @parseHead_of_headBlock { limits := limits, buffer := body.wire } _ _ headBlock
  have first := @Step.headWithBody { limits := limits, buffer := block ++ doubleCrlf ++ body.wire }
    { limits := limits, buffer := body.wire, state := .chunkSize } block body.wire head rfl rfl
      headBlock.delimited
    headBlock.bound (by simpa [enterBody, chunked] using parsed)
  have later := @body_steps { limits := limits, buffer := body.wire, state := .chunkSize } body
    [] rfl (by simp)
    (by simpa [BodyLimits.after] using valid) allowed
  exact first.steps.trans later

/-- Steps from a fresh codec that holds `wire` to a fresh codec are one call of `feed`. -/
theorem feed_of_steps {limits : CodecLimits} {wire : Bytes} {events : List Event}
    (steps : decoder.Steps { limits := limits, buffer := wire } { limits := limits } events) :
    feed { limits := limits } wire = ({ limits := limits }, .ok events) :=
  feed_eq_ok_iff.mpr ⟨Int.le_refl 0, rfl, Decoder.feed_ok_iff.mpr ⟨steps, fresh_waits limits⟩⟩

/-- A valid message that arrives whole is decoded, and nothing is left. -/
theorem feed_message {limits : CodecLimits} {message : Message} (valid : message.Valid limits) :
    ∃ pieces : List Bytes, pieces.flatten = message.body.data ∧ feed { limits := limits } message.wire =
      ({ limits := limits },
        .ok (.requestHead message.head :: pieces.map .bodyChunk ++
          [.requestEnd message.body.trailers])) := by
  obtain ⟨block, head, body⟩ := message
  obtain ⟨headBlock, framed⟩ := valid
  cases framed with
  | @fixed pieces plain length filled =>
    by_cases empty : pieces.flatten = []
    · have zero : head.contentLength = 0 := by simpa [empty] using length.symm
      refine ⟨[], by simp [MessageBody.data, empty], ?_⟩
      simpa [Message.wire, MessageBody.wire, MessageBody.trailers, empty] using feed_of_steps
        (empty_steps headBlock plain zero)
    · exact ⟨[pieces.flatten], by simp [MessageBody.data],
        feed_of_steps (fixed_steps headBlock plain empty length)⟩
  | @chunked body coded valid allowed =>
    refine ⟨body.chunks.map Chunk.data, rfl, ?_⟩
    simpa [Message.wire, MessageBody.wire, MessageBody.trailers, Function.comp_def] using
      feed_of_steps (chunked_steps headBlock coded valid allowed)

end Http1ServerCodec
end PccGateway
