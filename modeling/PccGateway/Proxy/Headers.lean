import PccGateway.Http1.Lexical

namespace PccGateway

def hopByHop : List Text :=
  ["connection".toList, "keep-alive".toList, "proxy-authenticate".toList, "proxy-authorization".toList,
    "te".toList, "trailer".toList, "transfer-encoding".toList, "upgrade".toList]

/-- `_connection_named_fields`: the tokens of every `Connection` field, each once. -/
def connectionNamedFields (headers : List Header) : List Text :=
  ((headers.filter fun header => lower header.1 = "connection".toList).flatMap fun header =>
    splitCommas header.2).foldl (fun named token => if token ∈ named then named else named ++ [token]) []

def sanitizeHopByHop (headers : List Header) : List Header :=
  let connectionFields := connectionNamedFields headers
  headers.filterMap fun (name, value) =>
    if lower name ∈ hopByHop ∨ lower name ∈ connectionFields then none else some (lower name, value)

/-- The loop of `forwarded_request_headers`: the headers kept, and the last incoming
`x-forwarded-for` when incoming values are trusted. -/
def forwardedLoop (trustIncoming : Bool) : List Header → List Header × Text → List Header × Text
  | [], result => result
  | (name, value) :: rest, (kept, incomingFor) =>
    if name = "x-forwarded-for".toList ∨ name = "x-forwarded-proto".toList ∨ name =
        "x-forwarded-host".toList then
      let incomingFor := if trustIncoming ∧ name = "x-forwarded-for".toList then value else incomingFor
      if trustIncoming = false ∨ name ≠ "x-forwarded-for".toList then
        forwardedLoop trustIncoming rest (kept, incomingFor)
      else forwardedLoop trustIncoming rest (kept ++ [(name, value)], incomingFor)
    else forwardedLoop trustIncoming rest (kept ++ [(name, value)], incomingFor)

def forwardedRequestHeaders (headers : List Header) (clientIp scheme originalHost : Text)
    (trustIncoming : Bool := false) : List Header :=
  let (kept, incomingFor) := forwardedLoop trustIncoming (sanitizeHopByHop headers) ([], [])
  let chain := if incomingFor ≠ [] then incomingFor ++ ", ".toList ++ clientIp else clientIp
  kept ++ [("x-forwarded-for".toList, chain), ("x-forwarded-proto".toList, scheme),
    ("x-forwarded-host".toList, originalHost)]

theorem fieldValues_append (first second : List Header) (name : String) :
    fieldValues (first ++ second) name = fieldValues first name ++ fieldValues second name := by
  simp [fieldValues]

end PccGateway
