import PccGateway.Http1.ChunkedEncoding
import PccGateway.Proxy.ExchangeRun
import PccGateway.Proxy.RequestHead

namespace PccGateway
namespace ProxyExchange

/-- The request side apart from its buffer. -/
def requestFlags (exchange : ProxyExchange) : Nat × Bool × Int × Bool :=
  (exchange.requestSent, exchange.requestFinished, exchange.contentLength, exchange.chunkedRequest)

theorem appendUpstream_eq_ok {exchange next : ProxyExchange} {data : Bytes} {isView : Bool}
    {transition : Transition} (valid : exchange.toUpstream.WellFormed)
    (run : appendUpstream data isView exchange = (next, .ok transition)) :
    next.toUpstream.WellFormed ∧ next.toUpstream.contents = exchange.toUpstream.contents ++ data ∧
      next.requestFlags = exchange.requestFlags := by
  obtain ⟨reserved, _, reserveRun, later⟩ := Method.bind_eq_ok_iff.mp run
  have kept : reserved.requestSide = exchange.requestSide := by
    have same := @reserve_leaves _ requestSide (fun _ _ => rfl) data.length exchange
    rwa [reserveRun] at same
  have buffer : reserved.toUpstream = exchange.toUpstream := congrArg Prod.fst kept
  obtain ⟨grown, appended, rfl⟩ := Method.on_eq_ok_iff.mp (Method.cleaning_eq_ok_iff.mp later)
  rw [buffer] at appended
  have result : grown.WellFormed ∧ grown.contents = exchange.toUpstream.contents ++ data := by
    cases isView
    · exact ChannelBuffer.append_wellFormed valid appended
    · exact ChannelBuffer.appendView_wellFormed valid appended
  exact ⟨result.1, result.2, congrArg Prod.snd kept⟩

theorem takeUpstream_eq_ok {exchange next : ProxyExchange} {limit : Int} {data : Bytes} {resumed : Bool}
    (valid : exchange.toUpstream.WellFormed)
    (run : takeUpstream limit exchange = (next, .ok (data, resumed))) :
    next.toUpstream.WellFormed ∧ exchange.toUpstream.contents = data ++ next.toUpstream.contents ∧
      next.requestFlags = exchange.requestFlags := by
  obtain ⟨_, _, start, later⟩ := Method.bind_eq_ok_iff.mp run
  cases start
  obtain ⟨read, taken, readRun, later⟩ := Method.bind_eq_ok_iff.mp later
  obtain ⟨released, _, releaseRun, later⟩ := Method.bind_eq_ok_iff.mp later
  obtain ⟨_, _, finish, result⟩ := Method.bind_eq_ok_iff.mp later
  cases finish
  cases result
  have kept : next.requestSide = read.requestSide := by
    have same := @release_leaves _ requestSide (fun _ _ => rfl) data.length read
    rwa [releaseRun] at same
  obtain ⟨buffer, bufferRun, rfl⟩ := Method.on_eq_ok_iff.mp readRun
  obtain ⟨drained, drainRun, drainedValid, drainedContents⟩ := ChannelBuffer.read_wellFormed valid limit
  rw [drainRun] at bufferRun
  cases bufferRun
  have same : next.toUpstream = buffer := congrArg Prod.fst kept
  refine ⟨same ▸ drainedValid, ?_, congrArg Prod.snd kept⟩
  rw [same, drainedContents, List.take_append_drop]

/-- The bytes that `finish_request` has appended. -/
inductive Ending (length : Int) (chunked : Bool) (pieces : List Bytes) : Option (List Header) → Bytes → Prop
  | unfinished : Ending length chunked pieces none []
  | fixed {trailers : List Header} : chunked = false → (pieces.flatten.length : Int) = length →
      Ending length chunked pieces (some trailers) []
  | chunked {trailers : List Header} {lines : Bytes} : chunked = true →
      requestTrailers (sanitizeHopByHop trailers) = .ok lines →
      Ending length chunked pieces (some trailers) (ascii "0" ++ crlf ++ lines ++ crlf)

/-- What has been written towards the upstream: the part that was taken and the part that is queued are the
head, the pieces that were fed and the end, each once and in this order. -/
structure Sent (head : Bytes) (length : Int) (chunked : Bool) (pieces : List Bytes)
    (ended : Option (List Header)) (taken : Bytes) (exchange : ProxyExchange) : Prop where
  wellFormed : exchange.toUpstream.WellFormed
  flags : exchange.requestFlags = (pieces.flatten.length, ended.isSome, length, chunked)
  wire : ∃ last, Ending length chunked pieces ended last ∧
    taken ++ exchange.toUpstream.contents = head ++ bodyWire chunked pieces ++ last

def Op.fed : Op → List Bytes
  | .feedRequestBody payload _ => [payload.data]
  | _ => []

def Op.ended : Op → Option (List Header)
  | .finishRequest trailers => some trailers
  | _ => none

namespace Sent
variable {head taken : Bytes} {length : Int} {chunked : Bool} {pieces : List Bytes}
  {ended : Option (List Header)} {exchange next : ProxyExchange}

theorem frame (before : Sent head length chunked pieces ended taken exchange)
    (same : next.requestSide = exchange.requestSide) :
    Sent head length chunked pieces ended taken next := by
  have buffer : next.toUpstream = exchange.toUpstream := congrArg Prod.fst same
  have flags : next.requestFlags = exchange.requestFlags := congrArg Prod.snd same
  refine ⟨?_, flags.trans before.flags, ?_⟩
  · rw [buffer]
    exact before.wellFormed
  · rw [buffer]
    exact before.wire

theorem feedRequestBody {data : Bytes} {isView : Bool} {transition : Transition}
    (before : Sent head length chunked pieces ended taken exchange)
    (run : ProxyExchange.feedRequestBody data isView exchange = (next, .ok transition)) :
    ended = none ∧ Sent head length chunked (pieces ++ [data]) ended taken next := by
  obtain ⟨sentEq, finishedEq, lengthEq, chunkedEq⟩ :
      exchange.requestSent = pieces.flatten.length ∧ exchange.requestFinished = ended.isSome ∧
        exchange.contentLength = length ∧ exchange.chunkedRequest = chunked := by
    simpa [requestFlags] using before.flags
  obtain ⟨_, _, start, later⟩ := Method.bind_eq_ok_iff.mp run
  cases start
  split at later
  · simp at later
  · rename_i writable
    have open_ : ended = none := by
      rw [finishedEq] at writable
      cases ended <;> simp_all
    split at later
    · simp [raiseProxy] at later
    · obtain ⟨_, _, counted, later⟩ := Method.bind_eq_ok_iff.mp later
      cases counted
      refine ⟨open_, ?_⟩
      subst open_
      obtain ⟨last, ending, wire⟩ := before.wire
      cases ending
      -- in both framings the bytes that are appended are the wire form of the new piece
      have appended : next.toUpstream.WellFormed ∧
          next.toUpstream.contents = exchange.toUpstream.contents ++ bodyWire chunked [data] ∧
          next.requestFlags = (exchange.requestSent + data.length, exchange.requestFinished,
            exchange.contentLength, exchange.chunkedRequest) := by
        split at later
        · rename_i framed
          have shape : bodyWire chunked [data] = (hexadecimal data.length).map charByte ++ crlf ++
              data ++ crlf := by
            simp [bodyWire, ← chunkedEq, framed.1, Http1ResponseEncoder.chunk, framed.2]
          rw [shape]
          exact appendUpstream_eq_ok (by exact before.wellFormed) later
        · rename_i plain
          have shape : bodyWire chunked [data] = data := by
            rw [chunkedEq] at plain
            cases chunked
            · simp [bodyWire]
            · have empty : data = [] := by simpa using plain
              simp [bodyWire, Http1ResponseEncoder.chunk, empty]
          rw [shape]
          exact appendUpstream_eq_ok (by exact before.wellFormed) later
      refine ⟨appended.1, ?_, [], .unfinished, ?_⟩
      · rw [appended.2.2, sentEq, finishedEq, lengthEq, chunkedEq, List.flatten_append, List.length_append]
        simp
      · rw [appended.2.1, ← List.append_assoc, wire, bodyWire_append]
        simp

theorem finishRequest {trailers : List Header} {transition : Transition}
    (before : Sent head length chunked pieces ended taken exchange)
    (run : ProxyExchange.finishRequest trailers exchange = (next, .ok transition)) :
    Sent head length chunked pieces (ended <|> some trailers) taken next := by
  obtain ⟨sentEq, finishedEq, lengthEq, chunkedEq⟩ :
      exchange.requestSent = pieces.flatten.length ∧ exchange.requestFinished = ended.isSome ∧
        exchange.contentLength = length ∧ exchange.chunkedRequest = chunked := by
    simpa [requestFlags] using before.flags
  obtain ⟨_, _, start, later⟩ := Method.bind_eq_ok_iff.mp run
  cases start
  split at later
  · rename_i already
    cases later
    rw [finishedEq] at already
    obtain ⟨first, rfl⟩ := Option.isSome_iff_exists.mp already
    exact before
  · rename_i writable
    have open_ : ended = none := by
      rw [finishedEq] at writable
      cases ended <;> simp_all
    subst open_
    obtain ⟨last, ending, wire⟩ := before.wire
    cases ending
    split at later
    · simp [raiseProxy] at later
    · rename_i complete
      obtain ⟨_, _, marked, later⟩ := Method.bind_eq_ok_iff.mp later
      cases marked
      split at later
      · rename_i fixed
        cases later
        rw [chunkedEq] at fixed
        have total : (pieces.flatten.length : Int) = length := by
          rw [← sentEq, ← lengthEq]
          simpa [chunkedEq, fixed] using complete
        exact ⟨before.wellFormed, by simp [requestFlags, sentEq, lengthEq, chunkedEq], [],
          .fixed fixed total, wire⟩
      · rename_i coded
        rw [chunkedEq] at coded
        obtain ⟨_, lines, lifted, later⟩ := Method.bind_eq_ok_iff.mp later
        obtain ⟨rfl, encodes⟩ := Method.lift_eq_ok_iff.mp lifted
        obtain ⟨valid, contents, flags⟩ := appendUpstream_eq_ok (by exact before.wellFormed) later
        refine ⟨valid, flags.trans ?_, _, .chunked (by simpa using coded) encodes, ?_⟩
        · simp [requestFlags, sentEq, lengthEq, chunkedEq]
        · rw [contents, ← List.append_assoc, wire]
          simp

/-- One operation appends what it appends, or takes from the front. -/
theorem perform {op : Op} {up down : Bytes} (before : Sent head length chunked pieces ended taken exchange)
    (run : op.perform exchange = (next, .ok (up, down))) :
    Sent head length chunked (pieces ++ op.fed) (ended <|> op.ended) (taken ++ up) next := by
  have untouched (same : next.requestSide = exchange.requestSide) (nothing : up = []) :
      Sent head length chunked (pieces ++ []) (ended <|> none) (taken ++ up) next := by
    simpa [nothing] using before.frame same
  have silent : (op.perform exchange).1 = next := by rw [run]
  cases op with
  | feedRequestBody payload isView =>
    obtain ⟨_, _, fed, result⟩ := Method.bind_eq_ok_iff.mp run
    cases result
    obtain ⟨rfl, after⟩ := before.feedRequestBody fed
    simpa [Op.fed, Op.ended] using after
  | finishRequest trailers =>
    obtain ⟨_, _, finished, result⟩ := Method.bind_eq_ok_iff.mp run
    cases result
    simpa [Op.fed, Op.ended] using before.finishRequest finished
  | takeUpstream limit =>
    obtain ⟨_, ⟨data, resumed⟩, took, result⟩ := Method.bind_eq_ok_iff.mp run
    cases result
    obtain ⟨valid, contents, flags⟩ := takeUpstream_eq_ok before.wellFormed took
    have after : Sent head length chunked pieces ended (taken ++ up) next := by
      refine ⟨valid, flags.trans before.flags, ?_⟩
      rw [List.append_assoc, ← contents]
      exact before.wire
    simpa [Op.fed, Op.ended] using after
  | feedUpstream data =>
    obtain ⟨_, _, _, result⟩ := Method.bind_eq_ok_iff.mp run
    cases result
    exact untouched (silent ▸ Op.response_leaves (.feedUpstream data) trivial exchange) rfl
  | upstreamEof =>
    obtain ⟨_, _, _, result⟩ := Method.bind_eq_ok_iff.mp run
    cases result
    exact untouched (silent ▸ Op.response_leaves .upstreamEof trivial exchange) rfl
  | takeDownstream limit =>
    obtain ⟨_, ⟨data, resumed⟩, _, result⟩ := Method.bind_eq_ok_iff.mp run
    cases result
    exact untouched (silent ▸ Op.response_leaves (.takeDownstream limit) trivial exchange) rfl
  | account ledger =>
    obtain ⟨_, _, _, result⟩ := Method.bind_eq_ok_iff.mp run
    cases result
    exact untouched (silent ▸ Op.response_leaves (.account ledger) trivial exchange) rfl

theorem performAll {ops : List Op} {up down : Bytes}
    (before : Sent head length chunked pieces ended taken exchange)
    (run : ProxyExchange.performAll ops exchange = (next, .ok (up, down))) :
    Sent head length chunked (pieces ++ ops.flatMap Op.fed) (ended <|> ops.findSome? Op.ended)
      (taken ++ up) next := by
  induction ops generalizing exchange pieces ended taken up down with
  | nil =>
    cases run
    simpa using before
  | cons op ops ih =>
    obtain ⟨middle, first, firstDown, rest, restDown, firstRun, restRun, rfl, rfl⟩ :=
      performAll_cons_eq_ok run
    have after := ih (before.perform firstRun) restRun
    have first : (ended <|> op.ended <|> ops.findSome? Op.ended) =
        (ended <|> (op :: ops).findSome? Op.ended) := by
      rw [List.findSome?_cons]
      cases op.ended <;> rfl
    simpa [← first, Option.or_assoc] using after

end Sent
end ProxyExchange
end PccGateway
