import PccGateway.Proxy.Exchange

namespace PccGateway

/-- A bytes object or a view over one. Its `len` is below `2 ^ 63`. -/
structure Payload where
  data : Bytes
  sized : data.length < 2 ^ 63

namespace ProxyExchange

/-- What the two sides of an exchange do with it. Between any two of these the other connections may move
the shared gauge. -/
inductive Op where
  | feedRequestBody (payload : Payload) (isView : Bool)
  | finishRequest (trailers : List Header)
  | takeUpstream (limit : Int)
  | feedUpstream (data : Bytes)
  | upstreamEof
  | takeDownstream (limit : Int)
  | account (ledger : Ledger)

/-- One operation, with the bytes it hands to the upstream and to the client. -/
def Op.perform : Op → Call (Bytes × Bytes)
  | .feedRequestBody payload isView => do
    let _ ← ProxyExchange.feedRequestBody payload.data isView
    return ([], [])
  | .finishRequest trailers => do
    let _ ← ProxyExchange.finishRequest trailers
    return ([], [])
  | .takeUpstream limit => do
    let (data, _) ← ProxyExchange.takeUpstream limit
    return (data, [])
  | .feedUpstream data => do
    let _ ← ProxyExchange.feedUpstream data
    return ([], [])
  | .upstreamEof => do
    let _ ← ProxyExchange.upstreamEof
    return ([], [])
  | .takeDownstream limit => do
    let (data, _) ← ProxyExchange.takeDownstream limit
    return ([], data)
  | .account ledger => do
    Method.modify fun exchange => { exchange with accounting := exchange.accounting.map fun _ => ledger }
    return ([], [])

def performAll : List Op → Call (Bytes × Bytes)
  | [] => return ([], [])
  | op :: ops => do
    let (up, down) ← op.perform
    let (moreUp, moreDown) ← performAll ops
    return (up ++ moreUp, down ++ moreDown)

/-- The bytes that left an exchange in each direction, and how many it still holds. -/
structure Transmission where
  upstream : Bytes
  downstream : Bytes
  queuedUpstream : Nat
  queuedDownstream : Nat
  deriving DecidableEq

/-- An exchange from its construction on, if nothing raises. -/
def transmit (request : ExchangeRequest) (limits : ExchangeLimits) (accounting : Option Ledger)
    (ops : List Op) :
    Except Exn Transmission := do
  let exchange ← init request limits accounting
  match performAll ops exchange with
  | (_, .error error) => .error error
  | (last, .ok (up, down)) => return {
      upstream := up
      downstream := down
      queuedUpstream := last.toUpstream.queuedBytes
      queuedDownstream := last.toDownstream.queuedBytes }

theorem transmit_eq_ok {request : ExchangeRequest} {limits : ExchangeLimits} {accounting : Option Ledger}
    {ops : List Op} {sent : Transmission} (run : transmit request limits accounting ops = .ok sent) :
    ∃ exchange last, init request limits accounting = .ok exchange ∧
      performAll ops exchange = (last, .ok (sent.upstream, sent.downstream)) ∧
      sent.queuedUpstream = last.toUpstream.queuedBytes ∧ sent.queuedDownstream =
        last.toDownstream.queuedBytes := by
  obtain ⟨exchange, start, performed⟩ := bind_eq_ok.mp run
  split at performed
  · cases performed
  · rename_i last up down result
    cases performed
    exact ⟨exchange, last, start, result, rfl, rfl⟩

theorem performAll_cons_eq_ok {op : Op} {ops : List Op} {exchange last : ProxyExchange} {up down : Bytes}
    (run : performAll (op :: ops) exchange = (last, .ok (up, down))) :
    ∃ next first firstDown rest restDown, op.perform exchange = (next, .ok (first, firstDown)) ∧
      performAll ops next = (last, .ok (rest, restDown)) ∧ up = first ++ rest ∧ down =
        firstDown ++ restDown := by
  obtain ⟨next, ⟨first, firstDown⟩, firstRun, later⟩ := Method.bind_eq_ok_iff.mp run
  obtain ⟨final, ⟨rest, restDown⟩, restRun, result⟩ := Method.bind_eq_ok_iff.mp later
  cases result
  exact ⟨next, first, firstDown, rest, restDown, firstRun, restRun, rfl, rfl⟩

theorem reserve_leaves {ρ : Type} {view : ProxyExchange → ρ}
    (same : ∀ exchange ledger, view { exchange with accounting := ledger } = view exchange) (count : Nat) :
    (reserve count).Leaves view := by
  intro exchange
  unfold reserve
  split
  · rfl
  · split
    · rfl
    · split
      · rfl
      · exact same _ _

theorem release_leaves {ρ : Type} {view : ProxyExchange → ρ}
    (same : ∀ exchange ledger, view { exchange with accounting := ledger } = view exchange) (count : Nat) :
    (release count).Leaves view := by
  intro exchange
  unfold release
  split
  · rfl
  · split
    · rfl
    · split
      · rfl
      · exact same _ _

/-- What the request side of an exchange reads and writes. -/
def requestSide (exchange : ProxyExchange) : ChannelBuffer × Nat × Bool × Int × Bool :=
  (exchange.toUpstream, exchange.requestSent, exchange.requestFinished, exchange.contentLength,
    exchange.chunkedRequest)

/-- What the response side of an exchange reads and writes. -/
def responseSide (exchange : ProxyExchange) :
    ChannelBuffer × Http1UpstreamCodec × Text × Bool × Bool × Bool :=
  (exchange.toDownstream, exchange.codec, exchange.method, exchange.expectContinueHandled,
    exchange.downstreamChunked, exchange.responseFinished)

/-- How far the response has come. -/
def reception (exchange : ProxyExchange) : Http1UpstreamCodec × Bool × Nat × Bool × Bool :=
  (exchange.codec, exchange.responseCommitted, exchange.responseStatus, exchange.responseFinished,
    exchange.upstreamKeepAlive)

section Parts
variable {α : Type}

theorem onUpstream_leaves (call : Method ChannelBuffer Exn α) : (onUpstream call).Leaves responseSide := by
  apply Method.Leaves.on
  exact fun _ _ => rfl

theorem onDownstream_leaves (call : Method ChannelBuffer Exn α) :
    (onDownstream call).Leaves requestSide := by
  apply Method.Leaves.on
  exact fun _ _ => rfl

theorem onCodec_leaves (call : Method Http1UpstreamCodec Exn α) : (onCodec call).Leaves requestSide := by
  apply Method.Leaves.on
  exact fun _ _ => rfl

end Parts

theorem appendDownstream_leaves (data : Bytes) : (appendDownstream data).Leaves requestSide :=
  .ite (.pure _) (.bind (reserve_leaves (fun _ _ => rfl) _) fun _ =>
    .cleaning (onDownstream_leaves _) (release_leaves (fun _ _ => rfl) _))

theorem appendUpstream_leaves (data : Bytes) (isView : Bool) :
    (appendUpstream data isView).Leaves responseSide :=
  .bind (reserve_leaves (fun _ _ => rfl) _) fun _ =>
    .cleaning (onUpstream_leaves _) (release_leaves (fun _ _ => rfl) _)

theorem forwardEvent_leaves (transition : Transition) (event : UpstreamEvent) :
    (forwardEvent transition event).Leaves requestSide := by
  have grows (data : Bytes) :
      (do let grown ← appendDownstream data; return grown.or transition : Call Transition).Leaves
      requestSide := .bind (appendDownstream_leaves data) fun _ => .pure _
  cases event with
  | responseHead head =>
    refine .bind .get fun _ => .ite (.ite (.pure _) (.bind (.lift _) fun _ => grows _)) ?_
    exact .bind (.modify fun _ => rfl) fun _ => .bind .get fun _ => .bind (.lift _) fun _ => grows _
  | responseBody data => exact .bind .get fun _ => grows _
  | responseEnd trailers =>
    have ends : (endDownstream trailers transition).Leaves requestSide :=
      .bind .get fun _ => .ite (.bind (.lift _) fun _ => grows _) (.pure _)
    exact .bind ends fun _ => .bind (.modify fun _ => rfl) fun _ => .pure _

theorem forwardEvents_leaves (events : List UpstreamEvent) : (forwardEvents events).Leaves requestSide :=
  .foldlM forwardEvent_leaves events _

/-- The response side of an exchange does not touch its request side. -/
theorem Op.response_leaves (op : Op) (response : match op with
      | .feedUpstream _ | .upstreamEof | .takeDownstream _ | .account _ => True
      | _ => False) : op.perform.Leaves requestSide := by
  cases op with
  | feedUpstream data =>
    refine .bind (.bind .get fun _ => .ite (.raise _) (.bind (onCodec_leaves _) forwardEvents_leaves))
        fun _ =>
      .pure _
  | upstreamEof => exact .bind (.bind (onCodec_leaves _) forwardEvents_leaves) fun _ => .pure _
  | takeDownstream limit =>
    exact .bind (.bind .get fun _ => .bind (onDownstream_leaves _) fun _ =>
      .bind (release_leaves (fun _ _ => rfl) _) fun _ => .bind .get fun _ => .pure _) fun _ => .pure _
  | account ledger => exact .bind (.modify fun _ => rfl) fun _ => .pure _
  | feedRequestBody => exact response.elim
  | finishRequest => exact response.elim
  | takeUpstream => exact response.elim

/-- The request side of an exchange does not touch its response side. -/
theorem Op.request_leaves (op : Op) (request : match op with
      | .feedRequestBody _ _ | .finishRequest _ | .takeUpstream _ | .account _ => True
      | _ => False) : op.perform.Leaves responseSide := by
  cases op with
  | feedRequestBody payload isView =>
    exact .bind (.bind .get fun _ => .ite (.raise _) (.ite (.lift _) (.bind (.modify fun _ => rfl) fun _ =>
      .ite (appendUpstream_leaves _ _) (appendUpstream_leaves _ _)))) fun _ => .pure _
  | finishRequest trailers =>
    exact .bind (.bind .get fun _ => .ite (.pure _) (.ite (.lift _) (.bind (.modify fun _ => rfl) fun _ =>
      .ite (.pure _) (.bind (.lift _) fun _ => appendUpstream_leaves _ _)))) fun _ => .pure _
  | takeUpstream limit =>
    exact .bind (.bind .get fun _ => .bind (onUpstream_leaves _) fun _ =>
      .bind (release_leaves (fun _ _ => rfl) _) fun _ => .bind .get fun _ => .pure _) fun _ => .pure _
  | account ledger => exact .bind (.modify fun _ => rfl) fun _ => .pure _
  | feedUpstream => exact request.elim
  | upstreamEof => exact request.elim
  | takeDownstream => exact request.elim

section Reception

theorem onUpstream_reception {α : Type} (call : Method ChannelBuffer Exn α) :
    (onUpstream call).Leaves reception := by
  apply Method.Leaves.on
  exact fun _ _ => rfl

theorem onDownstream_reception {α : Type} (call : Method ChannelBuffer Exn α) :
    (onDownstream call).Leaves reception := by
  apply Method.Leaves.on
  exact fun _ _ => rfl

theorem appendUpstream_reception (data : Bytes) (isView : Bool) :
    (appendUpstream data isView).Leaves reception :=
  .bind (reserve_leaves (fun _ _ => rfl) _) fun _ =>
    .cleaning (onUpstream_reception _) (release_leaves (fun _ _ => rfl) _)

theorem feedRequestBody_reception (data : Bytes) (isView : Bool) :
    (feedRequestBody data isView).Leaves reception :=
  .bind .get fun _ => .ite (.raise _) (.ite (.lift _) (.bind (.modify fun _ => rfl) fun _ =>
    .ite (appendUpstream_reception _ _) (appendUpstream_reception _ _)))

theorem finishRequest_reception (trailers : List Header) : (finishRequest trailers).Leaves reception :=
  .bind .get fun _ => .ite (.pure _) (.ite (.lift _) (.bind (.modify fun _ => rfl) fun _ =>
    .ite (.pure _) (.bind (.lift _) fun _ => appendUpstream_reception _ _)))

theorem takeUpstream_reception (limit : Int) : (takeUpstream limit).Leaves reception :=
  .bind .get fun _ => .bind (onUpstream_reception _) fun _ =>
      .bind (release_leaves (fun _ _ => rfl) _) fun _ =>
    .bind .get fun _ => .pure _

theorem takeDownstream_reception (limit : Int) : (takeDownstream limit).Leaves reception :=
  .bind .get fun _ => .bind (onDownstream_reception _) fun _ =>
      .bind (release_leaves (fun _ _ => rfl) _) fun _ =>
    .bind .get fun _ => .pure _

theorem cancel_reception (reason : String) : (cancel reason).Leaves reception :=
  .bind .get fun _ => .ite (.pure _) (.bind (.modify fun _ => rfl) fun _ =>
    release_leaves (fun _ _ => rfl) _)

end Reception

end ProxyExchange
end PccGateway
