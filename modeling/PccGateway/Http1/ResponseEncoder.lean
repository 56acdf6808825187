import PccGateway.Http1.FieldSection
import PccGateway.Http1.Digits

namespace PccGateway

/-- `_REASONS.get(status, "")`. -/
def reasonPhrase : Nat → String
  | 100 => "Continue"
  | 200 => "OK"
  | 201 => "Created"
  | 204 => "No Content"
  | 301 => "Moved Permanently"
  | 302 => "Found"
  | 304 => "Not Modified"
  | 400 => "Bad Request"
  | 404 => "Not Found"
  | 405 => "Method Not Allowed"
  | 413 => "Content Too Large"
  | 417 => "Expectation Failed"
  | 431 => "Request Header Fields Too Large"
  | 500 => "Internal Server Error"
  | 502 => "Bad Gateway"
  | 503 => "Service Unavailable"
  | 504 => "Gateway Timeout"
  | _ => ""

/-- The bytes of a name if they are a token. A character outside ASCII is not: no byte of its UTF-8
form is a token byte. -/
def tokenBytes (name : Text) : Option Bytes := (encodeAscii name).filter isToken

/-- `_validate_output_header`, with the bytes that it has validated. -/
def validateOutputHeader (name value : Text) : Except Exn (Bytes × Bytes) := do
  let valueBytes ← latin1Bytes value
  match tokenBytes name with
  | none => raiseHttp1 500 "bad-response-header" "unsafe response header rejected"
  | some nameBytes =>
    if containsBadValueByte valueBytes then
      raiseHttp1 500 "bad-response-header" "unsafe response header rejected"
    else return (nameBytes, valueBytes)

namespace Http1ResponseEncoder

/-- The field loop of `head` and of `end_chunks`. Each has its own list of names that the encoder
keeps for itself. -/
def fields (owned : List String) (code message : String) : List Header → Except Exn Bytes
  | [] => .ok []
  | (name, value) :: rest => do
    let (nameBytes, valueBytes) ← validateOutputHeader name value
    if lower name ∈ owned.map String.toList then raiseHttp1 500 code message
    else
      let more ← fields owned code message rest
      return fieldLine nameBytes valueBytes ++ crlf ++ more

def headFields : List Header → Except Exn Bytes :=
  fields ["content-length", "transfer-encoding", "connection"] "response-framing-owned"
    "response framing headers belong to the gateway encoder"

def trailerFields : List Header → Except Exn Bytes :=
  fields ["content-length", "transfer-encoding", "connection", "host"] "bad-response-trailer"
    "framing field in response trailer"

def head (status : Nat) (headers : List Header) (contentLength : Int := -1) (chunked : Bool := false)
    (keepAlive : Bool := true) : Except Exn Bytes :=
  if 0 ≤ contentLength ∧ chunked then .error (.value "response cannot be both fixed-length and chunked")
  else do
    let lines ← headFields headers
    return ascii "HTTP/1.1 " ++ (decimal status).map charByte ++ ascii " " ++
      ascii (reasonPhrase status) ++ crlf ++ lines ++
      (if 0 ≤ contentLength then ascii "Content-Length: " ++
        (decimal contentLength.toNat).map charByte ++ crlf else []) ++
      (if chunked then ascii "Transfer-Encoding: chunked" ++ crlf else []) ++
      (if keepAlive then [] else ascii "Connection: close" ++ crlf) ++ crlf

def chunk (data : Bytes) : Bytes :=
  if data = [] then [] else (hexadecimal data.length).map charByte ++ crlf ++ data ++ crlf

def endChunks (trailers : List Header) : Except Exn Bytes := do
  let lines ← trailerFields trailers
  return ascii "0" ++ crlf ++ lines ++ crlf

end Http1ResponseEncoder
end PccGateway
