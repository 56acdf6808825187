import PccGateway.Routing.Router

namespace PccGateway

/-- `name[0] == "-" or name[-1] == "-"` and the length of one label. -/
def validSniLabel (label : Text) : Bool :=
  label ≠ [] && label.length ≤ 63 && label.head? != some '-' && label.getLast? != some '-'

def isSniChar (c : Char) : Bool := ('a' ≤ c && c ≤ 'z') || ('0' ≤ c && c ≤ '9') || c == '-'

/-- The loop of `_normalize_sni_name` over the labels. -/
def checkSniLabels : List Text → Except String Unit
  | [] => .ok ()
  | label :: rest =>
    if !validSniLabel label then .error "invalid SNI label"
    else if !label.all isSniChar then .error "invalid SNI character"
    else checkSniLabels rest

/-- `_normalize_sni_name`; what it raises is a `ValueError`. -/
def normalizeSniName (letters : Letters) (serverName : Text) (allowWildcard : Bool) : Except String Text :=
  let name := letters.lower (serverName.rdropWhile (· == '.'))
  if name = [] ∨ 253 < name.length then .error "SNI name is empty or too long"
  else if (encodeAscii name).isNone then .error "SNI name must be ASCII"
  else if '*' ∈ name ∧ !allowWildcard then .error "client SNI cannot be a wildcard"
  else if '*' ∈ name ∧ (!(['*', '.'].isPrefixOf name) ∨ name.count '*' ≠ 1) then
    .error "wildcard SNI must use one leading '*.' label"
  else
    let wildcard := ['*', '.'].isPrefixOf name
    let withoutWildcard := if wildcard then name.drop 2 else name
    let labels := withoutWildcard.splitOn '.'
    if wildcard ∧ labels.length < 2 then .error "wildcard SNI must contain a registrable suffix"
    else
      match checkSniLabels labels with
      | .error message => .error message
      | .ok () => .ok (if wildcard then ['*', '.'] ++ withoutWildcard else withoutWildcard)

structure TlsCertificate where
  identifier : Text
  serverNames : List Text
  deriving DecidableEq, Repr

structure TlsConfig where
  defaultCertificate : TlsCertificate
  sniCertificates : List TlsCertificate
  alpn : List Text
  rejectUnknownSni : Bool
  deriving DecidableEq, Repr

/-- How a pattern of a certificate matches: as the name itself, or as a wildcard with its suffix. -/
inductive SniMatch where
  | exact
  | wildcard (suffixLength : Nat)
  | no

def sniMatch (pattern normalized : Text) : SniMatch :=
  if !(['*', '.'].isPrefixOf pattern) then if pattern = normalized then .exact else .no
  else
    let suffix := pattern.drop 1
    if !suffix.isSuffixOf normalized then .no
    else
      let start := normalized.take (normalized.length - suffix.length)
      if start = [] ∨ '.' ∈ start then .no else .wildcard suffix.length

/-- The two loops of `select_certificate`, over the certificates with their patterns in turn. The longest
wildcard so far comes with the length of its suffix; -1 is below every length. -/
def selectMatch (normalized : Text) : List (TlsCertificate × Text) → Option TlsCertificate → Int →
    Option TlsCertificate × Option TlsCertificate
  | [], wildcard, _ => (none, wildcard)
  | (certificate, pattern) :: rest, wildcard, length =>
    match sniMatch pattern normalized with
    | .exact => (some certificate, wildcard)
    | .wildcard suffixLength =>
      if length < suffixLength then selectMatch normalized rest (some certificate) suffixLength
      else selectMatch normalized rest wildcard length
    | .no => selectMatch normalized rest wildcard length

/-- `select_certificate`: an exact name before the longest one-label wildcard. -/
def TlsConfig.selectCertificate (letters : Letters) (config : TlsConfig) (serverName : Text) :
    Except String (Option TlsCertificate) :=
  if serverName = [] then .ok (some config.defaultCertificate)
  else
    match normalizeSniName letters serverName false with
    | .error message => .error message
    | .ok normalized =>
      let patterns := config.sniCertificates.flatMap fun certificate =>
        certificate.serverNames.map fun pattern => (certificate, pattern)
      match selectMatch normalized patterns none (-1) with
      | (some certificate, _) => .ok (some certificate)
      | (none, some certificate) => .ok (some certificate)
      | (none, none) => .ok (if config.rejectUnknownSni then none else some config.defaultCertificate)

end PccGateway
