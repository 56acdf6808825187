import PccGateway.Proxy.ExchangeRun
import PccGateway.Proxy.UpstreamRun

namespace PccGateway
open Method

/-- A final response head. -/
def UpstreamEvent.isFinal : UpstreamEvent → Bool
  | .responseHead head => !head.informational
  | _ => false

def UpstreamEvent.isEnd : UpstreamEvent → Bool
  | .responseEnd _ => true
  | _ => false

/-- Whether the upstream stays usable: the final head decides it. -/
def UpstreamEvent.reusable (before : Bool) : UpstreamEvent → Bool
  | .responseHead head => if head.informational then before else head.keepAlive
  | _ => before

namespace Http1UpstreamCodec

theorem feedAll_concat {codec middle last : Http1UpstreamCodec} {pieces : List Bytes} {data : Bytes}
    {events more : List UpstreamEvent} (first : codec.feedAll pieces = (middle, .ok events))
    (second : middle.feed data = (last, .ok more)) :
    codec.feedAll (pieces ++ [data]) = (last, .ok (events ++ more)) := by
  induction pieces generalizing codec events with
  | nil =>
    cases first
    simp only [List.nil_append, feedAll, second, List.append_nil]
  | cons piece pieces ih =>
    obtain ⟨next, start, rest, firstRun, restRun, rfl⟩ := feedAll_cons_eq_ok first
    simp only [List.cons_append, feedAll, firstRun, ih restRun, List.append_assoc]

/-- A response may end with the connection only when its final head is there. -/
theorem final_of_eof {codec next : Http1UpstreamCodec} {past new : List UpstreamEvent}
    (progress : Progress codec past)
    (run : codec.eof = (next, .ok new)) : past.any UpstreamEvent.isFinal = true := by
  cases progress with
  | heads state unfinished received infos =>
    unfold eof at run
    simp [state, unfinished, raiseProxy] at run
  | body unfinished infos final => simp [UpstreamEvent.isFinal, final]
  | done state complete infos final => simp [UpstreamEvent.isFinal, final]

end Http1UpstreamCodec

/-- A response that tells its own end. -/
def UpstreamResponseHead.Delimited (head : UpstreamResponseHead) : Prop :=
  head.bodyExpected = false ∨ head.chunked = true ∨ 0 ≤ head.contentLength

theorem ParsedHead.delimited {method : Text} {limits : BodyLimits} {head : UpstreamResponseHead}
    (parsed : ParsedHead method limits head) (stays : head.keepAlive = true) : head.Delimited := by
  obtain ⟨block, run⟩ := parsed
  obtain ⟨version, status, reason, headers, length, chunked, -, -, -, -, -, rfl⟩ :=
    parseResponseHead_eq_ok_iff.mp run
  simp only [responseHead] at stays
  split at stays
  · cases stays
  · rename_i framed
    unfold UpstreamResponseHead.Delimited responseHead
    simp only
    by_contra unframed
    obtain ⟨expected, rest⟩ := not_or.mp unframed
    obtain ⟨plain, unknown⟩ := not_or.mp rest
    exact framed ⟨of_decide_eq_true (eq_true_of_ne_false expected), plain, Int.not_le.mp unknown⟩

section Reusable

theorem reusable_heads {heads : List UpstreamResponseHead}
    (informational : ∀ head ∈ heads, head.informational = true)
    (before : Bool) : (heads.map .responseHead).foldl UpstreamEvent.reusable before = before := by
  induction heads with
  | nil => rfl
  | cons head heads ih =>
    rw [List.forall_mem_cons] at informational
    simp only [List.map_cons, List.foldl_cons, UpstreamEvent.reusable, informational.1, if_true]
    exact ih informational.2

theorem reusable_bodies (pieces : List Bytes) (before : Bool) :
    (pieces.map .responseBody).foldl UpstreamEvent.reusable before = before := by
  induction pieces with
  | nil => rfl
  | cons piece pieces ih => exact ih

variable {codec : Http1UpstreamCodec} {past : List UpstreamEvent}

/-- What the final head says is what stays. -/
theorem Progress.reusable_head (progress : Progress codec past)
    (stays : past.foldl UpstreamEvent.reusable false = true) :
    ∃ head, .responseHead head ∈ past ∧ head.informational = false ∧ head.Delimited ∧ codec.state ≠
      .untilEof := by
  cases progress with
  | heads state unfinished received infos =>
    rw [reusable_heads fun head member => (infos head member).1] at stays
    cases stays
  | @body informational head pieces unfinished infos final parsed expected body =>
    rw [List.foldl_append, reusable_heads fun head member => (infos head member).1, List.foldl_cons,
      reusable_bodies] at stays
    have delimited := parsed.delimited (by simpa [UpstreamEvent.reusable, final] using stays)
    refine ⟨head, by simp, final, delimited, fun state => ?_⟩
    rcases body with ⟨other⟩ | ⟨other⟩ | ⟨other⟩ | ⟨-, plain, unknown⟩
    · simp [state] at other
    · simp [state] at other
    · simp [state] at other
    · rcases delimited with empty | coded | known
      · simp [expected] at empty
      · simp [plain] at coded
      · omega
  | @done informational head pieces trailers state complete infos final parsed =>
    rw [List.foldl_append, reusable_heads fun head member => (infos head member).1, List.foldl_cons,
      List.foldl_append, reusable_bodies] at stays
    exact ⟨head, by simp, final,
      parsed.delimited (by simpa [UpstreamEvent.reusable, final] using stays), by simp [state]⟩

end Reusable

namespace ProxyExchange

/-- The codec, and what the head and the end of the response have decided. -/
def commitment (exchange : ProxyExchange) : Http1UpstreamCodec × Bool × Bool × Bool :=
  (exchange.codec, exchange.responseCommitted, exchange.responseFinished, exchange.upstreamKeepAlive)

theorem appendDownstream_commitment (data : Bytes) : (appendDownstream data).Leaves commitment := by
  refine .ite (.pure _) (.bind (reserve_leaves (fun _ _ => rfl) _) fun _ =>
    .cleaning ?_ (release_leaves (fun _ _ => rfl) _))
  unfold onDownstream
  apply Method.Leaves.on
  exact fun _ _ => rfl

theorem forwardEvent_commitment {exchange next : ProxyExchange} {event : UpstreamEvent}
    {before transition : Transition}
    (run : forwardEvent before event exchange = (next, .ok transition)) :
    next.commitment = (exchange.codec, exchange.responseCommitted || event.isFinal,
      exchange.responseFinished || event.isEnd, event.reusable exchange.upstreamKeepAlive) := by
  have silent {call : Call Transition} (leaves : call.Leaves commitment)
    (ran : call exchange = (next, .ok transition)) :
      next.commitment = (exchange.codec, exchange.responseCommitted || false,
        exchange.responseFinished || false, exchange.upstreamKeepAlive) := by
    have same := leaves exchange
    rw [ran] at same
    rw [Bool.or_false, Bool.or_false]
    exact same
  have grows (data : Bytes) :
      (do let grown ← appendDownstream data; return grown.or before : Call Transition).Leaves
      commitment := .bind (appendDownstream_commitment data) fun _ => .pure _
  cases event with
  | responseHead head =>
    by_cases informational : head.informational = true
    · simp only [UpstreamEvent.isFinal, UpstreamEvent.isEnd, UpstreamEvent.reusable, informational,
        Bool.not_true, if_true]
      refine silent ?_ run
      refine .bind .get fun _ => ?_
      rw [if_pos informational]
      exact .ite (.pure _) (.bind (.lift _) fun _ => grows _)
    · simp only [UpstreamEvent.isFinal, UpstreamEvent.isEnd, UpstreamEvent.reusable, informational,
        Bool.not_false, Bool.or_true, Bool.or_false, Bool.false_eq_true, if_false]
      obtain ⟨_, _, start, later⟩ := bind_eq_ok_iff.mp run
      cases start
      rw [if_neg informational] at later
      obtain ⟨committed, _, changed, later⟩ := bind_eq_ok_iff.mp later
      have rest : (do
          let exchange ← Method.get
          let length := if head.bodyExpected = false ∧ exchange.method ≠ "HEAD".toList ∧ head.status ≠
            304 then -1
            else head.contentLength
          let data ← Method.lift (Http1ResponseEncoder.head head.status (downstreamHeaders head.headers)
            (if (head.bodyExpected && decide (head.contentLength < 0)) then -1 else length)
            (head.bodyExpected && decide (head.contentLength < 0)))
          let grown ← appendDownstream data
          return grown.or before : Call Transition).Leaves commitment :=
        .bind .get fun _ => .bind (.lift _) fun _ => grows _
      have same := rest committed
      rw [later] at same
      rw [same]
      cases changed
      rfl
  | responseBody data => exact silent (.bind .get fun _ => grows _) run
  | responseEnd trailers =>
    have ends : (endDownstream trailers before).Leaves commitment :=
      .bind .get fun _ => .ite (.bind (.lift _) fun _ => grows _) (.pure _)
    obtain ⟨middle, _, first, later⟩ := bind_eq_ok_iff.mp run
    obtain ⟨_, _, changed, result⟩ := bind_eq_ok_iff.mp later
    cases result
    cases changed
    have same := ends exchange
    rw [first] at same
    simp only [commitment, Prod.mk.injEq] at same
    simp only [commitment, UpstreamEvent.isFinal, UpstreamEvent.isEnd, UpstreamEvent.reusable,
      Bool.or_true, Bool.or_false, same]

theorem forwardEvents_commitment {exchange next : ProxyExchange} {events : List UpstreamEvent}
    {before transition : Transition}
    (run : events.foldlM forwardEvent before exchange = (next, .ok transition)) :
    next.commitment = (exchange.codec, exchange.responseCommitted || events.any UpstreamEvent.isFinal,
      exchange.responseFinished || events.any UpstreamEvent.isEnd,
      events.foldl UpstreamEvent.reusable exchange.upstreamKeepAlive) := by
  induction events generalizing exchange before with
  | nil =>
    cases run
    simp [commitment]
  | cons event events ih =>
    obtain ⟨middle, after, first, later⟩ := bind_eq_ok_iff.mp run
    have one := forwardEvent_commitment first
    rw [ih later]
    simp only [commitment, Prod.mk.injEq] at one
    simp only [one, List.any_cons, List.foldl_cons, Bool.or_assoc]

theorem feedUpstream_commitment {exchange next : ProxyExchange} {data : Bytes} {transition : Transition}
    (run : feedUpstream data exchange = (next, .ok transition)) :
    ∃ events, exchange.codec.feed data = (next.codec, .ok events) ∧
      next.responseCommitted = (exchange.responseCommitted || events.any UpstreamEvent.isFinal) ∧
      next.responseFinished = (exchange.responseFinished || events.any UpstreamEvent.isEnd) ∧
      next.upstreamKeepAlive = events.foldl UpstreamEvent.reusable exchange.upstreamKeepAlive := by
  obtain ⟨_, _, start, later⟩ := bind_eq_ok_iff.mp run
  cases start
  split at later
  · simp at later
  · obtain ⟨_, events, onCodec, forwarded⟩ := bind_eq_ok_iff.mp later
    obtain ⟨codec, decoded, rfl⟩ := on_eq_ok_iff.mp onCodec
    have after := forwardEvents_commitment forwarded
    simp only [commitment, Prod.mk.injEq] at after
    exact ⟨events, after.1 ▸ decoded, after.2⟩

/-- A new exchange has received nothing. -/
theorem init_reception {request : ExchangeRequest} {limits : ExchangeLimits} {accounting : Option Ledger}
    {exchange : ProxyExchange} (start : init request limits accounting = .ok exchange) :
    exchange.reception =
      ({ requestMethod := upper (upper request.method), limits := {} }, false, 0, false, false) := by
  obtain ⟨low, high, buffer, wire, transition, -, -, appended⟩ := init_eq_ok start
  have kept := congrArg (fun result => result.1.reception) appended
  exact kept.symm.trans (appendUpstream_reception wire false _)

end ProxyExchange
end PccGateway
