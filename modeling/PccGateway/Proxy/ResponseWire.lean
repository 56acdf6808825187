import PccGateway.Proxy.ExchangeRun
import PccGateway.Proxy.UpstreamRun

namespace PccGateway

namespace Http1UpstreamCodec

/-- What arrives from the upstream: bytes, or the end of the stream. -/
def receive : Http1UpstreamCodec → List (Option Bytes) →
    Http1UpstreamCodec × Except Exn (List UpstreamEvent)
  | codec, [] => (codec, .ok [])
  | codec, arrival :: arrivals =>
    match (match arrival with
      | some data => codec.feed data
      | none => codec.eof) with
    | (next, .error error) => (next, .error error)
    | (next, .ok events) =>
      match receive next arrivals with
      | (last, .error error) => (last, .error error)
      | (last, .ok more) => (last, .ok (events ++ more))

end Http1UpstreamCodec

namespace ProxyExchange

/-- What the translation makes of one event: the bytes for the client, and whether the body goes on
chunked. -/
def eventWire (method : Text) (expectContinueHandled chunked : Bool) :
    UpstreamEvent → Except Exn (Bool × Bytes)
  | .responseHead head =>
    if head.informational then
      if head.status = 100 ∧ expectContinueHandled then .ok (chunked, [])
      else do
        let data ← Http1ResponseEncoder.head head.status (downstreamHeaders head.headers)
        return (chunked, data)
    else do
      let chunked := head.bodyExpected && decide (head.contentLength < 0)
      let length := if head.bodyExpected = false ∧ method ≠ "HEAD".toList ∧ head.status ≠ 304 then -1
        else head.contentLength
      let data ← Http1ResponseEncoder.head head.status (downstreamHeaders head.headers)
        (if chunked then -1 else length)
        chunked
      return (chunked, data)
  | .responseBody data => .ok (chunked, if chunked then Http1ResponseEncoder.chunk data else data)
  | .responseEnd trailers =>
    if chunked then do
      let data ← Http1ResponseEncoder.endChunks trailers
      return (chunked, data)
    else .ok (chunked, [])

/-- The events one after another. -/
inductive Translates (method : Text) (expectContinueHandled : Bool) :
    Bool → List UpstreamEvent → Bool → Bytes → Prop
  | nil (chunked : Bool) : Translates method expectContinueHandled chunked [] chunked []
  | cons {chunked next last : Bool} {event : UpstreamEvent} {events : List UpstreamEvent}
      {data rest : Bytes} :
      eventWire method expectContinueHandled chunked event = .ok (next, data) →
      Translates method expectContinueHandled next events last rest →
      Translates method expectContinueHandled chunked (event :: events) last (data ++ rest)

namespace Translates
variable {method : Text} {expectContinueHandled chunked next last : Bool} {events more : List UpstreamEvent}
  {data rest : Bytes}

theorem append (first : Translates method expectContinueHandled chunked events next data)
    (second : Translates method expectContinueHandled next more last rest) :
    Translates method expectContinueHandled chunked (events ++ more) last (data ++ rest) := by
  induction first with
  | nil => exact second
  | cons event _ ih =>
    rw [List.append_assoc]
    exact .cons event (ih second)

theorem append_inv (whole : Translates method expectContinueHandled chunked (events ++ more) last data) :
    ∃ next first rest, Translates method expectContinueHandled chunked events next first ∧
      Translates method expectContinueHandled next more last rest ∧ data = first ++ rest := by
  induction events generalizing chunked data with
  | nil => exact ⟨chunked, [], data, .nil chunked, whole, rfl⟩
  | cons event events ih =>
    cases whole with
    | cons one later =>
      obtain ⟨next, first, rest, front, back, rfl⟩ := ih later
      exact ⟨next, _, rest, .cons one front, back, by simp⟩

end Translates

/-- The response side apart from its buffer. -/
def responseFlags (exchange : ProxyExchange) : Http1UpstreamCodec × Text × Bool × Bool × Bool :=
  (exchange.codec, exchange.method, exchange.expectContinueHandled, exchange.downstreamChunked,
    exchange.responseFinished)

theorem appendDownstream_eq_ok {exchange next : ProxyExchange} {data : Bytes} {transition : Transition}
    (valid : exchange.toDownstream.WellFormed)
    (run : appendDownstream data exchange = (next, .ok transition)) :
    next.toDownstream.WellFormed ∧ next.toDownstream.contents = exchange.toDownstream.contents ++ data ∧
      next.responseFlags = exchange.responseFlags := by
  unfold appendDownstream at run
  split at run
  · rename_i empty
    cases run
    exact ⟨valid, by simp [empty], rfl⟩
  · obtain ⟨reserved, _, reserveRun, later⟩ := Method.bind_eq_ok_iff.mp run
    have kept : reserved.responseSide = exchange.responseSide := by
      have same := @reserve_leaves _ responseSide (fun _ _ => rfl) data.length exchange
      rwa [reserveRun] at same
    have buffer : reserved.toDownstream = exchange.toDownstream := congrArg Prod.fst kept
    obtain ⟨grown, appended, rfl⟩ := Method.on_eq_ok_iff.mp (Method.cleaning_eq_ok_iff.mp later)
    rw [buffer] at appended
    obtain ⟨grownValid, contents⟩ := ChannelBuffer.append_wellFormed valid appended
    exact ⟨grownValid, contents, congrArg Prod.snd kept⟩

theorem takeDownstream_eq_ok {exchange next : ProxyExchange} {limit : Int} {data : Bytes} {resumed : Bool}
    (valid : exchange.toDownstream.WellFormed)
    (run : takeDownstream limit exchange = (next, .ok (data, resumed))) :
    next.toDownstream.WellFormed ∧ exchange.toDownstream.contents = data ++ next.toDownstream.contents ∧
      next.responseFlags = exchange.responseFlags := by
  obtain ⟨_, _, start, later⟩ := Method.bind_eq_ok_iff.mp run
  cases start
  obtain ⟨read, taken, readRun, later⟩ := Method.bind_eq_ok_iff.mp later
  obtain ⟨released, _, releaseRun, later⟩ := Method.bind_eq_ok_iff.mp later
  obtain ⟨_, _, finish, result⟩ := Method.bind_eq_ok_iff.mp later
  cases finish
  cases result
  have kept : next.responseSide = read.responseSide := by
    have same := @release_leaves _ responseSide (fun _ _ => rfl) data.length read
    rwa [releaseRun] at same
  obtain ⟨buffer, bufferRun, rfl⟩ := Method.on_eq_ok_iff.mp readRun
  obtain ⟨drained, drainRun, drainedValid, drainedContents⟩ := ChannelBuffer.read_wellFormed valid limit
  rw [drainRun] at bufferRun
  cases bufferRun
  have same : next.toDownstream = buffer := congrArg Prod.fst kept
  refine ⟨same ▸ drainedValid, ?_, congrArg Prod.snd kept⟩
  rw [same, drainedContents, List.take_append_drop]

/-- Bytes of a translated event go to the client. -/
theorem grow_eq_ok {exchange next : ProxyExchange} {data : Bytes} {before transition : Transition}
    (valid : exchange.toDownstream.WellFormed)
    (run : (do let grown ← appendDownstream data; return grown.or before : Call Transition) exchange =
      (next, .ok transition)) :
    next.toDownstream.WellFormed ∧ next.toDownstream.contents = exchange.toDownstream.contents ++ data ∧
      next.responseFlags = exchange.responseFlags := by
  obtain ⟨grown, _, appended, result⟩ := Method.bind_eq_ok_iff.mp run
  cases result
  exact appendDownstream_eq_ok valid appended

/-- What one event leaves: the bytes of its translation are appended, and the codec is not touched. -/
structure ForwardsEvent (exchange next : ProxyExchange) (event : UpstreamEvent) : Prop where
  wellFormed : next.toDownstream.WellFormed
  translated : ∃ data,
    eventWire exchange.method exchange.expectContinueHandled exchange.downstreamChunked event =
      .ok (next.downstreamChunked, data) ∧ next.toDownstream.contents =
        exchange.toDownstream.contents ++ data
  codec : next.codec = exchange.codec
  method : next.method = exchange.method
  expectContinueHandled : next.expectContinueHandled = exchange.expectContinueHandled

theorem forwardFinalHead_eq_ok {exchange next : ProxyExchange} {head : UpstreamResponseHead}
    {before transition : Transition} (final : head.informational = false)
    (valid : exchange.toDownstream.WellFormed)
    (run : forwardFinalHead head before exchange = (next, .ok transition)) :
    ForwardsEvent exchange next (.responseHead head) := by
  obtain ⟨_, _, committed, later⟩ := Method.bind_eq_ok_iff.mp run
  cases committed
  obtain ⟨_, _, read, later⟩ := Method.bind_eq_ok_iff.mp later
  cases read
  obtain ⟨_, data, lifted, grows⟩ := Method.bind_eq_ok_iff.mp later
  obtain ⟨rfl, encodes⟩ := Method.lift_eq_ok_iff.mp lifted
  obtain ⟨grown, contents, flags⟩ := grow_eq_ok (by exact valid) grows
  simp only [responseFlags, Prod.mk.injEq] at flags
  obtain ⟨codec, method, handled, chunked, _⟩ := flags
  refine ⟨grown, ⟨data, ?_, contents⟩, codec, method, handled⟩
  simp only [eventWire, final, Bool.false_eq_true, if_false, bind_eq_ok]
  exact ⟨data, encodes, by rw [chunked]; rfl⟩

theorem endDownstream_eq_ok {exchange next : ProxyExchange} {trailers : List Header}
    {before transition : Transition} (valid : exchange.toDownstream.WellFormed)
    (run : endDownstream trailers before exchange = (next, .ok transition)) :
    next.toDownstream.WellFormed ∧ next.responseFlags = exchange.responseFlags ∧
      ∃ data, eventWire exchange.method exchange.expectContinueHandled exchange.downstreamChunked
          (.responseEnd trailers) = .ok (exchange.downstreamChunked, data) ∧
        next.toDownstream.contents = exchange.toDownstream.contents ++ data := by
  obtain ⟨_, _, read, later⟩ := Method.bind_eq_ok_iff.mp run
  cases read
  split at later
  · rename_i chunked
    obtain ⟨_, data, lifted, grows⟩ := Method.bind_eq_ok_iff.mp later
    obtain ⟨rfl, encodes⟩ := Method.lift_eq_ok_iff.mp lifted
    obtain ⟨grown, contents, flags⟩ := grow_eq_ok valid grows
    refine ⟨grown, flags, data, ?_, contents⟩
    simp only [eventWire, chunked, if_true, bind_eq_ok]
    exact ⟨data, encodes, rfl⟩
  · rename_i plain
    cases later
    exact ⟨valid, rfl, [], by simp [eventWire, plain], by simp⟩

theorem forwardEvent_eq_ok {exchange next : ProxyExchange} {event : UpstreamEvent}
    {before transition : Transition} (valid : exchange.toDownstream.WellFormed)
    (run : forwardEvent before event exchange = (next, .ok transition)) :
    ForwardsEvent exchange next event := by
  cases event with
  | responseHead head =>
    obtain ⟨_, _, read, later⟩ := Method.bind_eq_ok_iff.mp run
    cases read
    split at later
    · rename_i informational
      split at later
      · rename_i suppressed
        cases later
        exact ⟨valid, ⟨[], by simp [eventWire, informational, suppressed], by simp⟩, rfl, rfl, rfl⟩
      · rename_i passed
        obtain ⟨_, data, lifted, grows⟩ := Method.bind_eq_ok_iff.mp later
        obtain ⟨rfl, encodes⟩ := Method.lift_eq_ok_iff.mp lifted
        obtain ⟨grown, contents, flags⟩ := grow_eq_ok valid grows
        simp only [responseFlags, Prod.mk.injEq] at flags
        obtain ⟨codec, method, handled, chunked, _⟩ := flags
        refine ⟨grown, ⟨data, ?_, contents⟩, codec, method, handled⟩
        simp only [eventWire, informational, passed, if_true, if_false, bind_eq_ok]
        exact ⟨data, encodes, by rw [chunked]; rfl⟩
    · rename_i final
      exact forwardFinalHead_eq_ok (by simpa using final) valid later
  | responseBody data =>
    obtain ⟨_, _, read, later⟩ := Method.bind_eq_ok_iff.mp run
    cases read
    obtain ⟨grown, contents, flags⟩ := grow_eq_ok valid later
    simp only [responseFlags, Prod.mk.injEq] at flags
    obtain ⟨codec, method, handled, chunked, _⟩ := flags
    exact ⟨grown, ⟨_, by rw [eventWire, chunked], contents⟩, codec, method, handled⟩
  | responseEnd trailers =>
    obtain ⟨ended, _, endRun, later⟩ := Method.bind_eq_ok_iff.mp run
    obtain ⟨_, _, marked, result⟩ := Method.bind_eq_ok_iff.mp later
    cases marked
    cases result
    obtain ⟨grown, flags, data, translated, contents⟩ := endDownstream_eq_ok valid endRun
    simp only [responseFlags, Prod.mk.injEq] at flags
    obtain ⟨codec, method, handled, chunked, _⟩ := flags
    exact ⟨grown, ⟨data, by rw [translated, ← chunked], contents⟩, codec, method, handled⟩

/-- Events one after another: the invariant that `feed_upstream` and `upstream_eof` share. -/
structure ForwardsEvents (exchange next : ProxyExchange) (events : List UpstreamEvent) : Prop where
  wellFormed : next.toDownstream.WellFormed
  translated : ∃ data,
    Translates exchange.method exchange.expectContinueHandled exchange.downstreamChunked events
      next.downstreamChunked data ∧ next.toDownstream.contents = exchange.toDownstream.contents ++ data
  codec : next.codec = exchange.codec
  method : next.method = exchange.method
  expectContinueHandled : next.expectContinueHandled = exchange.expectContinueHandled

theorem forwardEvents_eq_ok {exchange next : ProxyExchange} {events : List UpstreamEvent}
    {before transition : Transition} (valid : exchange.toDownstream.WellFormed)
    (run : events.foldlM forwardEvent before exchange = (next, .ok transition)) :
    ForwardsEvents exchange next events := by
  induction events generalizing exchange before with
  | nil =>
    cases run
    exact ⟨valid, ⟨[], .nil _, by simp⟩, rfl, rfl, rfl⟩
  | cons event events ih =>
    rw [List.foldlM_cons] at run
    obtain ⟨middle, _, first, rest⟩ := Method.bind_eq_ok_iff.mp run
    obtain ⟨middleValid, ⟨data, translated, contents⟩, codec, method, handled⟩ :=
      forwardEvent_eq_ok valid first
    obtain ⟨lastValid, ⟨more, later, lastContents⟩, lastCodec, lastMethod, lastHandled⟩ :=
      ih middleValid rest
    rw [method, handled] at later
    exact ⟨lastValid, ⟨data ++ more, .cons translated later,
      by rw [lastContents, contents, List.append_assoc]⟩,
      lastCodec.trans codec, lastMethod.trans method, lastHandled.trans handled⟩

def Op.arrival : Op → Option (Option Bytes)
  | .feedUpstream data => some (some data)
  | .upstreamEof => some none
  | _ => none

/-- What has been written towards the client: the part that was taken and the part that is queued are the
translation of the events that the codec gave for what has arrived. -/
structure Relayed (request : ExchangeRequest) (arrivals : List (Option Bytes)) (taken : Bytes)
    (exchange : ProxyExchange) (events : List UpstreamEvent) : Prop where
  wellFormed : exchange.toDownstream.WellFormed
  method : exchange.method = upper request.method
  expectContinueHandled : exchange.expectContinueHandled = request.expectContinueHandled
  received : Http1UpstreamCodec.receive
    { requestMethod := upper (upper request.method), limits := {} } arrivals = (exchange.codec, .ok events)
  translated : Translates (upper request.method) request.expectContinueHandled false events
    exchange.downstreamChunked
    (taken ++ exchange.toDownstream.contents)

end ProxyExchange

namespace Http1UpstreamCodec

theorem receive_append {codec middle last : Http1UpstreamCodec} {arrivals : List (Option Bytes)}
    {arrival : Option Bytes}
    {events more : List UpstreamEvent} (first : codec.receive arrivals = (middle, .ok events))
    (second : (match arrival with
      | some data => middle.feed data
      | none => middle.eof) = (last, .ok more)) :
    codec.receive (arrivals ++ [arrival]) = (last, .ok (events ++ more)) := by
  induction arrivals generalizing codec events with
  | nil =>
    cases first
    simp only [List.nil_append, receive, second, List.append_nil]
  | cons one arrivals ih =>
    simp only [receive] at first
    split at first
    · cases first
    · rename_i next start run
      split at first
      · cases first
      · rename_i rest laterRun
        cases first
        simp only [List.cons_append, receive, run, ih laterRun, List.append_assoc]

end Http1UpstreamCodec

namespace ProxyExchange
namespace Relayed
variable {request : ExchangeRequest} {arrivals : List (Option Bytes)} {taken : Bytes}
  {exchange next : ProxyExchange} {events : List UpstreamEvent}

theorem frame (before : Relayed request arrivals taken exchange events)
    (same : next.responseSide = exchange.responseSide) : Relayed request arrivals taken next events := by
  simp only [responseSide, Prod.mk.injEq] at same
  obtain ⟨buffer, codec, method, handled, chunked, _⟩ := same
  refine ⟨?_, ?_, ?_, ?_, ?_⟩
  · rw [buffer]
    exact before.wellFormed
  · rw [method]
    exact before.method
  · rw [handled]
    exact before.expectContinueHandled
  · rw [codec]
    exact before.received
  · rw [chunked, buffer]
    exact before.translated

/-- Events that the codec gives for one arrival are forwarded. -/
theorem arrives (arrival : Option Bytes) {codec : Http1UpstreamCodec} {new : List UpstreamEvent}
    {transition : Transition} (before : Relayed request arrivals taken exchange events)
    (decoded : (match arrival with
      | some data => exchange.codec.feed data
      | none => exchange.codec.eof) = (codec, .ok new))
    (run : forwardEvents new { exchange with codec := codec } = (next, .ok transition)) :
    Relayed request (arrivals ++ [arrival]) taken next (events ++ new) := by
  obtain ⟨valid, ⟨data, translated, contents⟩, sameCodec, method, handled⟩ :=
    forwardEvents_eq_ok (by exact before.wellFormed) run
  simp only [before.method, before.expectContinueHandled] at translated
  refine ⟨valid, method.trans before.method, handled.trans before.expectContinueHandled, ?_, ?_⟩
  · rw [sameCodec]
    exact Http1UpstreamCodec.receive_append before.received decoded
  · rw [contents, ← List.append_assoc]
    exact before.translated.append translated

theorem perform {op : Op} {up down : Bytes} (before : Relayed request arrivals taken exchange events)
    (run : op.perform exchange = (next, .ok (up, down))) :
    ∃ new, Relayed request (arrivals ++ op.arrival.toList) (taken ++ down) next (events ++ new) := by
  have untouched (same : next.responseSide = exchange.responseSide) (nothing : down = []) :
      ∃ new, Relayed request (arrivals ++ []) (taken ++ down) next (events ++ new) :=
    ⟨[], by simpa [nothing] using before.frame same⟩
  have silent : (op.perform exchange).1 = next := by rw [run]
  cases op with
  | feedUpstream data =>
    obtain ⟨_, _, fed, result⟩ := Method.bind_eq_ok_iff.mp run
    cases result
    obtain ⟨_, _, start, later⟩ := Method.bind_eq_ok_iff.mp fed
    cases start
    split at later
    · simp at later
    · obtain ⟨_, new, onCodec, forwarded⟩ := Method.bind_eq_ok_iff.mp later
      obtain ⟨codec, decoded, rfl⟩ := Method.on_eq_ok_iff.mp onCodec
      exact ⟨new, by simpa [Op.arrival] using before.arrives (some data) decoded forwarded⟩
  | upstreamEof =>
    obtain ⟨_, _, ended, result⟩ := Method.bind_eq_ok_iff.mp run
    cases result
    obtain ⟨_, new, onCodec, forwarded⟩ := Method.bind_eq_ok_iff.mp ended
    obtain ⟨codec, decoded, rfl⟩ := Method.on_eq_ok_iff.mp onCodec
    exact ⟨new, by simpa [Op.arrival] using before.arrives none decoded forwarded⟩
  | takeDownstream limit =>
    obtain ⟨_, ⟨data, resumed⟩, took, result⟩ := Method.bind_eq_ok_iff.mp run
    cases result
    obtain ⟨valid, contents, flags⟩ := takeDownstream_eq_ok before.wellFormed took
    simp only [responseFlags, Prod.mk.injEq] at flags
    obtain ⟨codec, method, handled, chunked, _⟩ := flags
    refine ⟨[], ?_⟩
    simp only [Op.arrival, Option.toList_none, List.append_nil]
    refine ⟨valid, method.trans before.method, handled.trans before.expectContinueHandled, ?_, ?_⟩
    · rw [codec]
      exact before.received
    · rw [chunked, List.append_assoc, ← contents]
      exact before.translated
  | feedRequestBody payload isView =>
    obtain ⟨_, _, _, result⟩ := Method.bind_eq_ok_iff.mp run
    cases result
    exact untouched (silent ▸ Op.request_leaves (.feedRequestBody payload isView) trivial exchange) rfl
  | finishRequest trailers =>
    obtain ⟨_, _, _, result⟩ := Method.bind_eq_ok_iff.mp run
    cases result
    exact untouched (silent ▸ Op.request_leaves (.finishRequest trailers) trivial exchange) rfl
  | takeUpstream limit =>
    obtain ⟨_, ⟨data, resumed⟩, _, result⟩ := Method.bind_eq_ok_iff.mp run
    cases result
    exact untouched (silent ▸ Op.request_leaves (.takeUpstream limit) trivial exchange) rfl
  | account ledger =>
    obtain ⟨_, _, _, result⟩ := Method.bind_eq_ok_iff.mp run
    cases result
    exact untouched (silent ▸ Op.request_leaves (.account ledger) trivial exchange) rfl

theorem performAll {ops : List Op} {up down : Bytes}
    (before : Relayed request arrivals taken exchange events)
    (run : ProxyExchange.performAll ops exchange = (next, .ok (up, down))) :
    ∃ new, Relayed request (arrivals ++ ops.filterMap Op.arrival) (taken ++ down) next (events ++ new) := by
  induction ops generalizing exchange arrivals taken events up down with
  | nil =>
    cases run
    exact ⟨[], by simpa using before⟩
  | cons op ops ih =>
    obtain ⟨middle, first, firstDown, rest, restDown, firstRun, restRun, rfl, rfl⟩ :=
      performAll_cons_eq_ok run
    obtain ⟨new, step⟩ := before.perform firstRun
    obtain ⟨more, after⟩ := ih step restRun
    refine ⟨new ++ more, ?_⟩
    have arrived : op.arrival.toList ++ ops.filterMap Op.arrival = (op :: ops).filterMap Op.arrival := by
      rw [List.filterMap_cons]
      cases op.arrival <;> rfl
    simpa [← arrived] using after

end Relayed
end ProxyExchange
end PccGateway
