import PccGateway.Http1.ServerFeed

namespace PccGateway
open Search

/-- A chunk on the wire: its size line and its data. -/
structure Chunk where
  line : Bytes
  data : Bytes

def Chunk.wire (chunk : Chunk) : Bytes := chunk.line ++ crlf ++ chunk.data ++ crlf

/-- A size line as a decoder reads it: up to the first CRLF, of bounded length, denoting `size`. -/
structure SizeLine (line : Bytes) (size : Nat) : Prop where
  delimited : Delimited crlf line
  short : line.length ≤ 128
  parsed : parseChunkSizeLine line = .ok size

structure Chunk.Valid (maxChunkBytes : Int) (chunk : Chunk) : Prop where
  sizeLine : SizeLine chunk.line chunk.data.length
  nonempty : chunk.data ≠ []
  bound : (chunk.data.length : Int) ≤ maxChunkBytes

/-- The trailer section: an empty line at once, or field lines up to the first blank line. -/
inductive TrailerSection (maxHeaderBytes maxHeaderCount : Int) : Bytes → List Header → Prop
  | none : TrailerSection maxHeaderBytes maxHeaderCount crlf []
  | fields {block : Bytes} {trailers : List Header} :
      Delimited doubleCrlf block → ¬ crlf <+: block ++ doubleCrlf →
      ((block.length + 4 : Nat) : Int) ≤ maxHeaderBytes →
      parseHeaders (splitCrlf block) maxHeaderCount = .ok trailers →
      TrailerSection maxHeaderBytes maxHeaderCount (block ++ doubleCrlf) trailers

/-- A chunked body: data chunks, a zero-size chunk and a trailer section. -/
structure ChunkedBody where
  chunks : List Chunk
  lastLine : Bytes
  trailerWire : Bytes
  trailers : List Header

namespace ChunkedBody

def data (body : ChunkedBody) : Bytes := (body.chunks.map Chunk.data).flatten

def wire (body : ChunkedBody) : Bytes :=
  (body.chunks.map Chunk.wire).flatten ++ body.lastLine ++ crlf ++ body.trailerWire

/-- The grammar and the limits that both codecs put on a chunked body. -/
structure Valid (limits : BodyLimits) (body : ChunkedBody) : Prop where
  chunks : ∀ chunk ∈ body.chunks, chunk.Valid limits.maxChunkBytes
  total : (body.data.length : Int) ≤ limits.maxBodyBytes
  lastLine : SizeLine body.lastLine 0
  chunkBound : 0 ≤ limits.maxChunkBytes
  trailers : TrailerSection limits.maxHeaderBytes limits.maxHeaderCount body.trailerWire body.trailers

end ChunkedBody

/-- The body of a request message. A fixed body is delivered in pieces, as its bytes arrive. -/
inductive MessageBody where
  | fixed (pieces : List Bytes)
  | chunked (body : ChunkedBody)

def MessageBody.wire : MessageBody → Bytes
  | .fixed pieces => pieces.flatten
  | .chunked body => body.wire

/-- The bytes that reach the application. -/
def MessageBody.data : MessageBody → Bytes
  | .fixed pieces => pieces.flatten
  | .chunked body => body.data

def MessageBody.events : MessageBody → List Event
  | .fixed pieces => pieces.map .bodyChunk ++ [.requestEnd []]
  | .chunked body => body.chunks.map (fun chunk => .bodyChunk chunk.data) ++ [.requestEnd body.trailers]

/-- A head block: everything before the first blank line, and what it parses to. -/
structure HeadBlock (limits : CodecLimits) (block : Bytes) (head : RequestHead) : Prop where
  delimited : Delimited doubleCrlf block
  bound : ((block.length + 4 : Nat) : Int) ≤ limits.maxHeaderBytes
  parsed : parseRequestHead limits block = .ok head

/-- One request on the wire. -/
structure Message where
  block : Bytes
  head : RequestHead
  body : MessageBody

namespace Message

def wire (message : Message) : Bytes := message.block ++ doubleCrlf ++ message.body.wire

def events (message : Message) : List Event := .requestHead message.head :: message.body.events

/-- How the head frames the body. -/
inductive Framed (limits : CodecLimits) (head : RequestHead) : MessageBody → Prop
  | fixed {pieces : List Bytes} :
      head.chunked = false → (pieces.flatten.length : Int) = head.contentLength →
      (∀ piece ∈ pieces, piece ≠ []) → Framed limits head (.fixed pieces)
  | chunked {body : ChunkedBody} : head.chunked = true → body.Valid limits.toBodyLimits →
      Http1ServerCodec.forbiddenTrailers.any (hasField body.trailers) = false →
      Framed limits head (.chunked body)

structure Valid (limits : CodecLimits) (message : Message) : Prop where
  headBlock : HeadBlock limits message.block message.head
  framed : Framed limits message.head message.body

end Message

/-- The part of a message that the decoder has taken from its buffer, with the events it gave. -/
inductive Partial (limits : CodecLimits) (codec : Http1ServerCodec) : Bytes → List Event → Prop
  | idle : codec.state = .head → codec.remaining = 0 → codec.bodyReceived = 0 → Partial limits codec [] []
  | fixed {block : Bytes} {head : RequestHead} {pieces : List Bytes} :
      codec.state = .fixedBody → HeadBlock limits block head → head.chunked = false →
      ((pieces.flatten.length + codec.remaining : Nat) : Int) = head.contentLength → 0 < codec.remaining →
      (∀ piece ∈ pieces, piece ≠ []) →
      Partial limits codec (block ++ doubleCrlf ++ pieces.flatten)
        (.requestHead head :: pieces.map .bodyChunk)
  | chunkSize {block : Bytes} {head : RequestHead} {chunks : List Chunk} :
      codec.state = .chunkSize → HeadBlock limits block head → head.chunked = true →
      (∀ chunk ∈ chunks, chunk.Valid limits.maxChunkBytes) →
      codec.bodyReceived = (chunks.map Chunk.data).flatten.length →
      Partial limits codec (block ++ doubleCrlf ++ (chunks.map Chunk.wire).flatten)
        (.requestHead head :: chunks.map fun chunk => .bodyChunk chunk.data)
  | chunkData {block line : Bytes} {head : RequestHead} {chunks : List Chunk} :
      codec.state = .chunkData → HeadBlock limits block head → head.chunked = true →
      (∀ chunk ∈ chunks, chunk.Valid limits.maxChunkBytes) →
      codec.bodyReceived = (chunks.map Chunk.data).flatten.length →
      SizeLine line codec.remaining → 0 < codec.remaining →
      (codec.remaining : Int) ≤ limits.maxChunkBytes →
      Partial limits codec (block ++ doubleCrlf ++ (chunks.map Chunk.wire).flatten ++ line ++ crlf)
        (.requestHead head :: chunks.map fun chunk => .bodyChunk chunk.data)
  | trailers {block line : Bytes} {head : RequestHead} {chunks : List Chunk} :
      codec.state = .trailers → HeadBlock limits block head → head.chunked = true →
      (∀ chunk ∈ chunks, chunk.Valid limits.maxChunkBytes) →
      ((chunks.map Chunk.data).flatten.length : Int) ≤ limits.maxBodyBytes →
      SizeLine line 0 → 0 ≤ limits.maxChunkBytes →
      Partial limits codec (block ++ doubleCrlf ++ (chunks.map Chunk.wire).flatten ++ line ++ crlf)
        (.requestHead head :: chunks.map fun chunk => .bodyChunk chunk.data)

end PccGateway
