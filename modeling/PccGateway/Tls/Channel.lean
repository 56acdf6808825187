import PccGateway.Lib.Method
import PccGateway.Tls.Sni

namespace PccGateway
open Method

namespace TlsStatus
def ok : Int := 0
def wantRead : Int := 1
def wantWrite : Int := 2
def closed : Int := 3
def selectSni : Int := 4
def error : Int := -1
end TlsStatus

namespace TlsError
def none : Int := 0
def deadline : Int := 1
def cancelled : Int := 2
def protocol : Int := 3
def unrecognizedName : Int := 7
def alpn : Int := 8
def provider : Int := 9
def providerContract : Int := 10
def configuration : Int := 11
def internal : Int := 12
end TlsError

/-- `tls_error_name`. -/
def tlsErrorName (errorCode : Int) : String :=
  match errorCode with
  | 0 => "none"
  | 1 => "deadline"
  | 2 => "cancelled"
  | 3 => "protocol"
  | 4 => "certificate"
  | 5 => "io"
  | 6 => "truncated"
  | 7 => "unrecognized-name"
  | 8 => "alpn"
  | 9 => "provider"
  | 10 => "provider-contract"
  | 11 => "configuration"
  | 12 => "internal"
  | _ => "unknown"

structure TlsResult where
  status : Int
  count : Int := 0
  errorCode : Int := TlsError.none
  detail : Text := []
  serverName : Text := []
  deriving DecidableEq, Repr

/-- `_tls_error`, with the bound that the constructor puts on a detail. -/
def tlsError (errorCode : Int) (detail : Text) : TlsResult where
  status := TlsStatus.error
  errorCode := errorCode
  detail := detail.take 160

/-- What a call on the provider gives: a value of the type it should have, a value of another one, or an
exception with its text. -/
inductive Answer (α : Type) where
  | returned (value : α)
  | other
  | raised (message : Text)
  deriving Repr

/-- What a channel asks of its provider. -/
inductive ProviderCall (Context : Type) where
  | handshake
  | setServerContext (context : Context)
  | selectedAlpn
  | read (limit : Int)
  | write (length : Int)
  | closeNotify
  | freeConnection
  deriving DecidableEq, Repr

structure TlsChannel (Session : Type) where
  /-- `self.generation.config` -/
  generation : Option TlsConfig
  session : Option Session
  handshakeComplete : Bool := false
  sniSelected : Bool := false
  serverName : Text := []
  certificateId : Text
  alpn : Text := []
  peerClosed : Bool := false
  closeNotifyStarted : Bool := false
  closeNotifyComplete : Bool := false
  failed : Bool := false
  released : Bool := false
  closed : Bool := false
  lastError : String := "none"
  lastResult : TlsResult := { status := TlsStatus.ok }
  deriving DecidableEq, Repr

/-- A call that was made, and the channel as it was then. -/
structure CallRecord (Session Context : Type) where
  call : ProviderCall Context
  channel : TlsChannel Session

structure ChannelState (Session Context : Type) where
  channel : TlsChannel Session
  calls : List (CallRecord Session Context)

/-- A provider behaves in any way: what it answers depends on the calls so far, the present one the last. -/
structure TlsProvider (Session Context : Type) where
  result : List (CallRecord Session Context) → Answer TlsResult
  selectedAlpn : List (CallRecord Session Context) → Answer Text
  freeConnection : List (CallRecord Session Context) → Option Text

/-- What a call on the channel finds in its generation, which other channels share. -/
structure GenerationView (Context : Type) where
  destroyed : Bool
  contextOf : Text → Option Context
  /-- `release` raises with this text. -/
  releaseRaises : Option Text

/-- The exceptions that leave a call: `TlsProviderError`, `ValueError`, or the use of a generation that
is `None`. -/
inductive ChannelExn where
  | tlsProvider (message : String)
  | value (message : String)
  | attribute
  deriving DecidableEq, Repr

abbrev ChannelM (Session Context α : Type) : Type := Method (ChannelState Session Context) ChannelExn α

namespace TlsChannel
variable {Session Context : Type}

/-- `TlsChannel.__init__`, when the provider gave it a session. -/
def init (config : TlsConfig) (session : Session) : TlsChannel Session where
  generation := some config
  session := some session
  certificateId := config.defaultCertificate.identifier

def remembered (channel : TlsChannel Session) (result : TlsResult) : TlsChannel Session :=
  { channel with
    lastResult := result
    lastError := tlsErrorName result.errorCode
    failed := channel.failed || result.status == TlsStatus.error }

/-- An assignment to fields of the channel. -/
def assign (change : TlsChannel Session → TlsChannel Session) : ChannelM Session Context Unit :=
  modify fun s => { s with channel := change s.channel }

def remember (result : TlsResult) : ChannelM Session Context TlsResult := do
  assign (·.remembered result)
  return result

def providerFailure (detail : Text) : ChannelM Session Context TlsResult :=
  remember (tlsError TlsError.provider detail)

def contractFailure (detail : String) : ChannelM Session Context TlsResult :=
  remember (tlsError TlsError.providerContract detail.toList)

def deadline (nowMs deadlineMs : Int) : ChannelM Session Context (Option TlsResult) :=
  if nowMs < 0 ∨ deadlineMs ≤ 0 then
    some <$> remember (tlsError TlsError.configuration "invalid absolute deadline".toList)
  else if deadlineMs ≤ nowMs then some <$> remember (tlsError TlsError.deadline "deadline expired".toList)
  else pure none

/-- The call reaches the provider. -/
def record (call : ProviderCall Context) : ChannelM Session Context Unit :=
  modify fun s => { s with calls := s.calls ++ [⟨call, s.channel⟩] }

def callResult (provider : TlsProvider Session Context) (methodName : String)
    (call : ProviderCall Context) :
    ChannelM Session Context TlsResult := do
  record call
  match provider.result (← get).calls with
  | .raised message => providerFailure (methodName.toList ++ ": ".toList ++ message)
  | .other => contractFailure (methodName ++ " returned a non-TlsResult")
  | .returned result => return result

def validateResult (operation : String) (result : TlsResult) (limit : Int) :
    ChannelM Session Context TlsResult :=
  if result.status ∉ [TlsStatus.ok, TlsStatus.wantRead, TlsStatus.wantWrite, TlsStatus.closed,
    TlsStatus.selectSni, TlsStatus.error] then
    contractFailure (operation ++ " returned an unknown status")
  else if result.status = TlsStatus.selectSni ∧ operation ≠ "handshake" then
    contractFailure (operation ++ " requested SNI selection")
  else if result.status = TlsStatus.selectSni ∧ result.serverName = [] then
    contractFailure "handshake requested empty SNI"
  else if result.status ≠ TlsStatus.selectSni ∧ result.serverName ≠ [] then
    contractFailure (operation ++ " returned unexpected SNI")
  else if result.status = TlsStatus.error then
    if result.errorCode ≤ TlsError.none ∨ TlsError.internal < result.errorCode then
      contractFailure (operation ++ " returned invalid error code")
    else if result.count ≠ 0 then contractFailure (operation ++ " error returned byte count")
    else remember result
  else if result.errorCode ≠ TlsError.none then contractFailure (operation ++ " mixed status and error")
  else if operation ∈ ["read", "write"] ∧ result.status = TlsStatus.ok then
    if result.count ≤ 0 ∨ limit < result.count then
      contractFailure (operation ++ " returned invalid byte count")
    else remember result
  else if result.count ≠ 0 then contractFailure (operation ++ " returned unexpected byte count")
  else remember result

def preflight (nowMs deadlineMs : Int) : ChannelM Session Context (Option TlsResult) := do
  let channel := (← get).channel
  if channel.released ∨ channel.session.isNone then some <$> remember { status := TlsStatus.closed }
  else if channel.failed then return some channel.lastResult
  else if channel.closed then some <$> remember { status := TlsStatus.closed }
  else deadline nowMs deadlineMs

/-- `result.status == TLS_ERROR and self.failed`. -/
def brokeOff (result : TlsResult) : ChannelM Session Context Bool := do
  return result.status == TlsStatus.error && (← get).channel.failed

/-- `self.generation.select_context(server_name)`: the context and the identifier of its certificate. -/
def selectContext (letters : Letters) (view : GenerationView Context) (serverName : Text) :
    ChannelM Session Context (Option (Context × Text)) := do
  match (← get).channel.generation with
  | none => raise .attribute
  | some config =>
    match config.selectCertificate letters serverName with
    | .error message => raise (.value message)
    | .ok none => return none
    | .ok (some certificate) =>
      if view.destroyed then raise (.tlsProvider "TLS generation is released")
      else
        match view.contextOf certificate.identifier with
        | none => raise (.tlsProvider "TLS generation context is missing")
        | some context => return some (context, certificate.identifier)

/-- `handshake`, when the provider asked for a server name. -/
def handshakeSni (provider : TlsProvider Session Context) (letters : Letters)
    (view : GenerationView Context) (result : TlsResult) : ChannelM Session Context TlsResult := do
  if (← get).channel.sniSelected then contractFailure "provider requested SNI more than once"
  else
    match normalizeSniName letters result.serverName false with
    | .error message => remember (tlsError TlsError.protocol message.toList)
    | .ok normalized =>
      match ← selectContext letters view normalized with
      | none => remember (tlsError TlsError.unrecognizedName "SNI name is not configured".toList)
      | some (context, certificateId) =>
        let selected ← callResult provider "set_server_context" (.setServerContext context)
        if ← brokeOff selected then return selected
        else
          let selected ← validateResult "set_server_context" selected 0
          if selected.status ≠ TlsStatus.ok then
            contractFailure "set_server_context must complete synchronously"
          else
            assign fun channel =>
              { channel with sniSelected := true, serverName := normalized, certificateId := certificateId }
            remember { status := TlsStatus.selectSni, serverName := normalized }

/-- `handshake`, when the provider is done with it. -/
def handshakeDone (provider : TlsProvider Session Context) (result : TlsResult) :
    ChannelM Session Context TlsResult := do
  record .selectedAlpn
  match provider.selectedAlpn (← get).calls with
  | .raised message => providerFailure ("selected_alpn: ".toList ++ message)
  | .other => contractFailure "selected_alpn returned a non-string"
  | .returned selectedAlpn =>
    if selectedAlpn = [] then
      assign fun channel => { channel with alpn := selectedAlpn, handshakeComplete := true }
      return result
    else
      match (← get).channel.generation with
      | none => raise .attribute
      | some config =>
        if selectedAlpn ∉ config.alpn then
          remember (tlsError TlsError.alpn "provider selected unconfigured ALPN".toList)
        else
          assign fun channel => { channel with alpn := selectedAlpn, handshakeComplete := true }
          return result

def handshake (provider : TlsProvider Session Context) (letters : Letters) (view : GenerationView Context)
    (nowMs deadlineMs : Int) : ChannelM Session Context TlsResult := do
  match ← preflight nowMs deadlineMs with
  | some result => return result
  | none =>
    if (← get).channel.handshakeComplete then remember { status := TlsStatus.ok }
    else
      let result ← callResult provider "handshake" .handshake
      if ← brokeOff result then return result
      else
        let result ← validateResult "handshake" result 0
        if result.status = TlsStatus.selectSni then handshakeSni provider letters view result
        else if result.status = TlsStatus.ok then handshakeDone provider result
        else if result.status = TlsStatus.closed then do
          assign fun channel => { channel with peerClosed := true }
          return result
        else return result

/-- `output` has `size` bytes. -/
def read (provider : TlsProvider Session Context) (size : Nat) (limit nowMs deadlineMs : Int) :
    ChannelM Session Context TlsResult := do
  match ← preflight nowMs deadlineMs with
  | some result => return result
  | none =>
    if !(← get).channel.handshakeComplete then
      remember (tlsError TlsError.configuration "TLS read before handshake".toList)
    else if limit ≤ 0 ∨ (size : Int) < limit then
      remember (tlsError TlsError.configuration "invalid TLS read limit".toList)
    else
      let result ← callResult provider "read" (.read limit)
      if ← brokeOff result then return result
      else
        let result ← validateResult "read" result limit
        if result.status = TlsStatus.closed then do
          assign fun channel => { channel with peerClosed := true }
          return result
        else return result

/-- `data` has `size` bytes. -/
def write (provider : TlsProvider Session Context) (size : Nat) (length nowMs deadlineMs : Int) :
    ChannelM Session Context TlsResult := do
  match ← preflight nowMs deadlineMs with
  | some result => return result
  | none =>
    let channel := (← get).channel
    if !channel.handshakeComplete then
      remember (tlsError TlsError.configuration "TLS write before handshake".toList)
    else if channel.closeNotifyStarted then
      remember (tlsError TlsError.configuration "TLS write after close-notify".toList)
    else if length ≤ 0 ∨ (size : Int) < length then
      remember (tlsError TlsError.configuration "invalid TLS write length".toList)
    else
      let result ← callResult provider "write" (.write length)
      if ← brokeOff result then return result
      else validateResult "write" result length

def closeNotify (provider : TlsProvider Session Context) (nowMs deadlineMs : Int) :
    ChannelM Session Context TlsResult := do
  match ← preflight nowMs deadlineMs with
  | some result => return result
  | none =>
    let channel := (← get).channel
    if !channel.handshakeComplete then
      remember (tlsError TlsError.configuration "close-notify before handshake".toList)
    else if channel.closeNotifyComplete then remember { status := TlsStatus.closed }
    else
      assign fun channel => { channel with closeNotifyStarted := true }
      let result ← callResult provider "close_notify" .closeNotify
      if ← brokeOff result then return result
      else
        let result ← validateResult "close_notify" result 0
        if result.status = TlsStatus.ok then
          contractFailure "close_notify must return WANT_READ, WANT_WRITE, CLOSED or ERROR"
        else if result.status = TlsStatus.closed then do
          assign fun channel => { channel with closeNotifyComplete := true, closed := true }
          return result
        else return result

def cancel : ChannelM Session Context TlsResult := do
  if (← get).channel.released then remember { status := TlsStatus.closed }
  else remember (tlsError TlsError.cancelled "TLS operation cancelled".toList)

/-- What `free_connection` and then `release` of the generation raise; the first of them counts. -/
def close (provider : TlsProvider Session Context) (view : GenerationView Context) :
    ChannelM Session Context TlsResult := do
  let channel := (← get).channel
  if channel.released then return { status := TlsStatus.closed }
  else
    assign fun channel => { channel with released := true, closed := true, session := none, generation := none }
    let freeError ← match channel.session with
      | none => pure none
      | some _ => do
        record .freeConnection
        pure (provider.freeConnection (← get).calls)
    let releaseError := if channel.generation.isSome then view.releaseRaises else none
    match freeError <|> releaseError with
    | some message => remember (tlsError TlsError.provider ("TLS cleanup failed: ".toList ++ message))
    | none => remember { status := TlsStatus.closed }

end TlsChannel

end PccGateway
