import PccGateway.Http1.ServerCodec
import PccGateway.Routing

namespace PccGateway

/-- A request as the constructor leaves it: a target that does not normalise is never stored. The
body stream and the cancellation are owned by the connection and kept with it. -/
structure Request where
  method : Text
  target : Text
  rawPath : Text
  path : Text
  queryString : Text
  version : Version
  headers : List Header
  clientIp : Text
  scheme : Text
  contentLength : Int
  chunkedBody : Bool
  expectContinueHandled : Bool
  trailers : List Header
  target_split : splitTarget target = (rawPath, queryString)
  path_normal : normalizePath rawPath = .ok path
  deriving DecidableEq

/-- `Request.__init__`. -/
def Request.init (method target : Text) (version : Version) (headers : List Header) (clientIp scheme : Text)
    (contentLength : Int) (chunkedBody expectContinueHandled : Bool) : Except Exn Request :=
  let parts := splitTarget target
  match normal : normalizePath parts.1 with
  | .error error => .error error
  | .ok path => .ok {
      method := upper method
      target := target
      rawPath := parts.1
      path := path
      queryString := parts.2
      version := version
      headers := headers
      clientIp := clientIp
      scheme := scheme
      contentLength := contentLength
      chunkedBody := chunkedBody
      expectContinueHandled := expectContinueHandled
      trailers := []
      target_split := rfl
      path_normal := normal }

/-- The first value of a header, compared without case. -/
def Request.header (request : Request) (name : String) : Option Text :=
  (request.headers.find? fun header => lower header.1 = lower name.toList).map (·.2)

end PccGateway
