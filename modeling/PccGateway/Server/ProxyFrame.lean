import PccGateway.Server.ServingFrame

namespace PccGateway
namespace GatewayConnection
open Thread Method

/-- The effects of relaying: all that the parts of a proxy attempt do in common. -/
def relaying : Effect → Prop
  | .output | .buffered | .deadline | .exchange => True
  | .entry .io | .entry .queued | .entry .exchange | .entry .resolver => True
  | _ => False

/-- The effects of waiting for an upstream, with an eye on the client. -/
def observing : Effect → Prop
  | .entry .io | .entry .resolver => True
  | _ => False

/-- The effects of relaying without those of writing to the upstream. -/
def delivering : Effect → Prop
  | .output | .buffered | .deadline | .exchange => True
  | .entry .io | .entry .queued | .entry .resolver => True
  | _ => False

theorem writing_le_delivering : writing ≤ delivering := by
  intro effect allowed
  cases effect with
  | entry kind => cases kind <;> first | exact allowed | trivial
  | _ => first | exact allowed | trivial

theorem observing_le_delivering : observing ≤ delivering := by
  intro effect allowed
  cases effect with
  | entry kind => cases kind <;> first | exact allowed | trivial
  | _ => first | exact allowed | trivial

theorem delivering_le_relaying : delivering ≤ relaying := by
  intro effect allowed
  cases effect with
  | entry kind => cases kind <;> first | exact allowed | trivial
  | _ => exact allowed

theorem observing_le_relaying : observing ≤ relaying := observing_le_delivering.trans delivering_le_relaying

theorem writing_le_relaying : writing ≤ relaying := writing_le_delivering.trans delivering_le_relaying

/-- A relation that a proxy attempt moves along: it contains what the attempt does by itself, and the three
calls by which it lets the connection go on. -/
structure Carries (world : World) (E : Effect → Prop) (R : GatewayConnection → GatewayConnection →
      Prop) : Prop where
  calm : ∀ before after, Moves E before after → R before after
  feed : ∀ data maxMessages, Evolves R (feedData world data maxMessages)
  consume : ∀ id, Evolves R (consumePendingBodyEvents world id)
  timeout : ∀ phase, Evolves R (deadlineTimeout world phase)

theorem Carries.of_moves {world : World} {E : Effect → Prop}
    {R : GatewayConnection → GatewayConnection → Prop}
    (carries : Carries world E R) {α : Type} {call : Call α} (moves : Evolves (Moves E) call) :
    Evolves R call :=
  moves.mono carries.calm

section Transport
variable {E : Effect → Prop} (world : World)

theorem writeTransport_moves (data : Bytes) : Evolves (Moves E) (writeTransport world data) := by
  refine .bind .get fun connection => .ite ?_ ?_
  · refine .bind (ask_moves world _) fun outcome => ?_
    exact .bind (.modify fun connection => { Moves.still connection with }) fun _ => .pure _
  · refine .bind (nowMs_moves world) fun now => .bind (.modify fun connection => ?_) fun _ => ?_
    · split <;> exact { Moves.still connection with }
    · refine .bind (ask_moves world _) fun outcome => ?_
      cases outcome with
      | ok count => exact .pure _
      | want interest =>
        exact .bind (.modify fun connection => { Moves.still connection with }) fun _ => .pure _
      | closed => exact .raise _
      | failed name => exact .raise _

theorem observeTransport_moves : Evolves (Moves E) (observeTransport world) := by
  refine .bind .get fun connection => .ite ?_ ?_
  · exact .bind (.modify fun connection => { Moves.still connection with }) fun _ => ask_moves world _
  · refine .bind (nowMs_moves world) fun now => .bind (ask_moves world _) fun outcome => ?_
    cases outcome with
    | ok data => exact .bind (.modify fun connection => { Moves.still connection with }) fun _ => .pure _
    | want interest =>
      exact .bind (.modify fun connection => { Moves.still connection with }) fun _ => .pure _
    | closed => exact .pure _
    | failed name => exact .raise _

theorem readTransport_moves (allowed : E (.entry .io)) : Evolves (Moves E) (readTransport world) := by
  refine .bind (observeTransport_moves world) fun outcome => ?_
  cases outcome with
  | progress data => exact .bind (note_moves allowed) fun _ => .pure _
  | wouldBlock => exact .pure _
  | eof => exact .pure _
  | failed => exact .pure _

end Transport

section Relaying
variable {world : World} {E : Effect → Prop} {R : GatewayConnection → GatewayConnection → Prop}
  [IsPreorder GatewayConnection R] (carries : Carries world E R)
include carries

section Observing
variable (sub : observing ≤ E)
include sub

theorem proxyObserveDownstream_carried (id : Nat) : Evolves R (proxyObserveDownstream world id) := by
  refine .bind (carries.of_moves (readTransport_moves world (sub (.entry .io) trivial))) fun outcome => ?_
  cases outcome with
  | progress data =>
    refine .ite (.bind (carries.of_moves (cancelRequest_moves id _)) fun _ => .pure _) ?_
    refine .bind (carries.of_moves (nowMs_moves world)) fun now => ?_
    refine .bind (carries.of_moves (.modify fun connection => { Moves.still connection with })) fun _ => ?_
    refine .bind (carries.feed data 1) fun handled => .bind .get fun connection => .ite (.pure _) ?_
    refine .bind (carries.of_moves (requestObject_moves id)) fun object => .ite (.pure _) ?_
    exact .bind (carries.consume id) fun _ => .pure _
  | eof => exact .bind (carries.of_moves (cancelRequest_moves id _)) fun _ => .pure _
  | wouldBlock => exact .pure _
  | failed => exact .bind (carries.of_moves (cancelRequest_moves id _)) fun _ => .pure _

theorem proxyWaitUpstream_carried (timeoutMs : Int) (id : Nat) :
    Evolves R (proxyWaitUpstream world timeoutMs id) :=
  .ite (.pure _) (.bind (carries.of_moves (ask_moves world _)) fun _ =>
    proxyObserveDownstream_carried carries sub id)

theorem proxyReadDownstreamBody_carried (id : Nat) (timeoutMs : Int) :
    Evolves R (proxyReadDownstreamBody world id timeoutMs) := by
  refine .bind (carries.consume id) fun _ =>
    .bind (carries.of_moves (requestObject_moves id)) fun object => ?_
  refine .ite (.pure _) (.bind (proxyObserveDownstream_carried carries sub id) fun observation => ?_)
  refine .bind (carries.of_moves (requestObject_moves id)) fun object => .ite (.pure _) ?_
  exact .bind (.when (carries.of_moves (ask_moves world _))) fun _ => .pure _

omit [IsPreorder GatewayConnection R] carries sub in
theorem proxyRemainingMs_moves (id : Nat) : Evolves (Moves E) (proxyRemainingMs world id) :=
  .bind (nowMs_moves world) fun _ => .bind .get fun _ => .bind (requestObject_moves id) fun _ => .pure _

omit [IsPreorder GatewayConnection R] carries sub in
theorem proxyDeadlineFailure_moves (id : Nat) : Evolves (Moves E) (proxyDeadlineFailure world id) := by
  refine .bind (requestObject_moves id) fun object => .ite (.pure _) ?_
  refine .bind (proxyRemainingMs_moves id) fun remaining =>
    .ite (.pure _) (.bind (cancelRequest_moves id _) fun _ => ?_)
  exact .bind (hook_moves world) fun _ => .bind .get fun _ => .pure _

omit [IsPreorder GatewayConnection R] carries sub in
theorem cancelDriver_moves (failure : Failure) : Evolves (Moves E) (cancelDriver world failure) :=
  .bind (ask_moves world _) fun _ => .bind (hook_moves world) fun _ => .pure _

theorem dnsWait_carried (remaining : Int) (id : Nat) (ipv6 : Bool) :
    Evolves R (dnsWait world remaining id ipv6) := by
  refine .ite (.bind (carries.of_moves (cancelDriver_moves _)) fun _ => .pure _) ?_
  refine .bind (carries.of_moves (ask_moves world _)) fun _ => ?_
  refine .bind (proxyObserveDownstream_carried carries sub id) fun observation => ?_
  cases observation with
  | none => exact .pure _
  | some failure => exact .bind (carries.of_moves (cancelDriver_moves _)) fun _ => .pure _

theorem dnsPass_carried (limit : Int) (id : Nat) (ipv6 : Bool) :
    Evolves R (dnsPass world limit id ipv6) := by
  refine .bind (carries.of_moves (requestObject_moves id)) fun object => ?_
  refine .ite (.bind (carries.of_moves (cancelDriver_moves _)) fun _ => .pure _) ?_
  refine .bind (carries.of_moves (nowMs_moves world)) fun now =>
    .bind (carries.of_moves (ask_moves world _)) fun step => ?_
  have hooked {β : Type} (result : β) : Evolves R (do hook world; return result : Call β) :=
    .bind (carries.of_moves (hook_moves world)) fun _ => .pure _
  cases step with
  | complete values =>
    refine .ite (hooked _) (.bind (carries.of_moves (ask_moves world _)) fun addresses => hooked _)
  | error code =>
    refine .ite (.bind (carries.of_moves (ask_moves world _)) fun _ => .pure _) ?_
    exact .bind (carries.of_moves (hook_moves world)) fun _ => .ite (.pure _) (.pure _)
  | wait deadlineMs => exact dnsWait_carried carries sub _ id ipv6
  | ignored attemptDeadlineMs => exact dnsWait_carried carries sub _ id ipv6
  | progress => exact .pure _

variable (fuel : Nat)

theorem resolveUpstreamAddress_carried (endpoint : UpstreamEndpoint) (limit : Int) (id : Nat) :
    Evolves R (resolveUpstreamAddress world fuel endpoint limit id) := by
  unfold resolveUpstreamAddress
  split
  · exact .pure _
  · refine .bind .get fun connection =>
      .ite (.pure _) (.bind (carries.of_moves (nowMs_moves world)) fun now => ?_)
    refine .bind (carries.of_moves (requestObject_moves id)) fun object => .ite (.pure _) ?_
    refine .bind (.attempt (.bind (carries.of_moves (hook_moves world)) fun _ =>
      .bind (carries.of_moves (ask_moves world _)) fun _ =>
        .loop (dnsPass_carried carries sub _ id) fuel _)) fun outcome => ?_
    cases outcome with
    | ok result => exact .pure _
    | error error =>
      refine .bind (carries.of_moves (note_moves (sub (.entry .resolver) trivial))) fun _ => ?_
      refine .bind (.settle_cons (carries.of_moves (ask_moves world _)) ?_) fun _ => .pure _
      exact .settle_cons (carries.of_moves (hook_moves world)) .settle_nil

theorem connectLoop_carried (id : Nat) : Evolves R (connectLoop world fuel id) := by
  refine .bind (carries.of_moves (ask_moves world _)) fun outcome => .loop (fun outcome => ?_) fuel outcome
  refine .ite (.pure _) (.bind (carries.of_moves (proxyDeadlineFailure_moves id)) fun failure => ?_)
  cases failure with
  | some failure => exact .pure _
  | none =>
    refine .bind (carries.of_moves (proxyRemainingMs_moves id)) fun remaining => ?_
    refine .bind (proxyWaitUpstream_carried carries sub remaining id) fun failure => ?_
    cases failure with
    | some failure => exact .pure _
    | none => exact .bind (carries.of_moves (ask_moves world _)) fun _ => .pure _

theorem candidateAddresses_carried (endpoint : UpstreamEndpoint) (id : Nat) :
    Evolves R (candidateAddresses world fuel endpoint id) :=
  .bind .get fun _ => .ite (.pure _) (resolveUpstreamAddress_carried carries sub fuel endpoint _ id)

end Observing

section Delivering
variable (sub : delivering ≤ E) (fuel : Nat)
include sub

omit carries [IsPreorder GatewayConnection R] sub in
theorem onExchange_moves {α : Type} {call : ProxyExchange.Call α} (exchanges : E .exchange)
    (buffers : E .buffered) (response : E .response ∨ call.Leaves ProxyExchange.reception) :
    Evolves (Moves E) (onExchange world call) := by
  intro connection
  unfold onExchange
  split
  · exact .still _
  · rename_i exchange found
    refine trans_of (Moves E) ?_ (Evolves.reraise _ _)
    exact { Moves.still connection with
      exchange := .inl exchanges
      response := response.imp_right fun leaves => by
        rw [found]
        exact congrArg some (leaves _)
      buffered := .inl buffers }

omit carries [IsPreorder GatewayConnection R] sub in
theorem exchangeView_moves : Evolves (Moves E) exchangeView := by
  intro connection
  unfold exchangeView
  split <;> exact .still _

theorem flushTransport_carried : Evolves R (flushTransport world) := by
  refine .bind .get fun connection => .ite (.pure _) ?_
  refine .bind (carries.of_moves (writeTransport_moves world _)) fun outcome => ?_
  cases outcome with
  | progress count =>
    refine .ite (.raise _) (.bind (carries.of_moves (note_moves (sub (.entry .io) trivial))) fun _ => ?_)
    exact .bind (carries.of_moves (consumeOutput_moves world (writing_le_delivering.trans sub) _))
      fun _ => .pure _
  | wouldBlock =>
    refine .bind (carries.of_moves (nowMs_moves world)) fun now => ?_
    refine .bind (carries.of_moves (.modify fun connection => ?_)) fun _ => .bind .get fun connection => ?_
    · split <;> exact { Moves.still connection with }
    · exact .ite (.bind (carries.timeout _) fun _ => .pure _) (.pure _)
  | failed => exact .raise _

theorem drainOutput_carried : Evolves R (drainOutput world fuel) := by
  refine .loop (fun _ => .bind .get fun connection => .ite (.pure _) ?_) fuel ()
  refine .bind (flushTransport_carried carries sub) fun outcome => ?_
  cases outcome with
  | timeout => exact .pure _
  | wouldBlock =>
    exact .bind (carries.of_moves (nowMs_moves world)) fun _ =>
      .bind (carries.of_moves (ask_moves world _)) fun _ => .pure _
  | progress => exact .pure _

theorem proxyFlushDownstream_carried : Evolves R (proxyFlushDownstream world fuel) := by
  refine .loop (fun _ => ?_) fuel ()
  refine .bind (carries.of_moves exchangeView_moves) fun exchange =>
    .ite (.pure _) (.bind .get fun connection => ?_)
  refine .bind (carries.of_moves (onExchange_moves (sub .exchange trivial) (sub .buffered trivial)
    (.inr (ProxyExchange.takeDownstream_reception _)))) fun taken => ?_
  refine .bind (carries.of_moves (queueBytes_moves world (writing_le_delivering.trans sub) _)) fun _ => ?_
  refine .bind (drainOutput_carried carries sub fuel) fun failure => ?_
  cases failure <;> exact .pure _

theorem responseProgress_carried (wasCommitted : Bool) :
    Evolves R (responseProgress world wasCommitted) := by
  have timed (change : GatewayConnection → ProxyDeadline) :
      Evolves R (modify fun connection => { connection with deadline := change connection }) :=
    carries.of_moves (.modify fun connection => { Moves.still connection with
      deadline := .inl (sub .deadline trivial) })
  refine .bind (carries.of_moves (nowMs_moves world)) fun now =>
    .bind (carries.of_moves exchangeView_moves) fun exchange => ?_
  exact .ite (timed _) (.ite (timed _) (.pure _))

theorem flushedOr_carried (next : Pass Unit (Option AttemptResult)) :
    Evolves R (flushedOr world fuel next) := by
  refine .bind (proxyFlushDownstream_carried carries sub fuel) fun failure => ?_
  cases failure with
  | none => exact .pure _
  | some failure => exact .bind (carries.of_moves exchangeView_moves) fun _ => .pure _

theorem receivePass_carried (response : E .response) (entries : E (.entry .response)) (handle : Int)
    (id : Nat) :
    Evolves R (receivePass world fuel handle id) := by
  have recorded {entry : Entry} (kind : entry.kind = .response) : Evolves R (note entry) :=
    carries.of_moves (note_moves (kind ▸ entries))
  have failing (failure : Failure) : Evolves R (do
      let result ← attemptFailed failure
      return .done (some result) : Call (Pass Unit (Option AttemptResult))) :=
    .bind (carries.of_moves (.bind exchangeView_moves fun _ => .pure _)) fun _ => .pure _
  refine .bind (carries.of_moves exchangeView_moves) fun exchange => .ite (.pure _) ?_
  refine .bind (carries.of_moves (proxyDeadlineFailure_moves id)) fun failure => ?_
  split
  · exact failing _
  · refine .bind (carries.of_moves (ask_moves world _)) fun outcome => ?_
    cases outcome with
    | progress data =>
      refine .ite (.bind (recorded rfl) fun _ => failing _) (.bind (recorded rfl) fun _ => ?_)
      refine .bind (carries.of_moves (onExchange_moves (sub .exchange trivial) (sub .buffered trivial)
        (.inl response))) fun _ => ?_
      exact .bind (responseProgress_carried carries sub _) fun _ => flushedOr_carried carries sub fuel _
    | eof =>
      refine .bind (recorded rfl) fun _ =>
        .bind (carries.of_moves (onExchange_moves (sub .exchange trivial) (sub .buffered trivial)
        (.inl response))) fun _ => ?_
      exact flushedOr_carried carries sub fuel _
    | wouldBlock =>
      refine .bind (carries.of_moves (proxyRemainingMs_moves id)) fun budget => ?_
      refine .bind (proxyWaitUpstream_carried carries (observing_le_delivering.trans sub) budget id)
        fun failure => ?_
      cases failure with
      | some failure => exact failing _
      | none => exact .pure _
    | failed => exact .bind (recorded rfl) fun _ => failing _

end Delivering

section Writing
variable (sub : relaying ≤ E) (fuel : Nat)
include sub

theorem sendData_carried (handle : Int) (id : Nat) (data : Bytes) :
    Evolves R (sendData world fuel handle id data) := by
  refine .loop (fun remaining => ?_) fuel data
  refine .ite (.pure _) (.bind (carries.of_moves (proxyDeadlineFailure_moves id)) fun failure => ?_)
  cases failure with
  | some failure => exact .pure _
  | none =>
    refine .bind (carries.of_moves (ask_moves world _)) fun outcome => ?_
    cases outcome with
    | progress count =>
      refine .ite (.pure _) ?_
      exact .bind (carries.of_moves (note_moves (sub (.entry .exchange) trivial))) fun _ => .pure _
    | wouldBlock =>
      refine .bind (carries.of_moves (proxyRemainingMs_moves id)) fun budget => ?_
      refine .bind (proxyWaitUpstream_carried carries (observing_le_relaying.trans sub) budget id)
        fun failure => ?_
      cases failure <;> exact .pure _
    | failed => exact .pure _

theorem proxyWriteQueued_carried (handle : Int) (id : Nat) :
    Evolves R (proxyWriteQueued world fuel handle id) := by
  refine .loop (fun _ => ?_) fuel ()
  refine .bind (carries.of_moves exchangeView_moves) fun exchange =>
    .ite (.pure _) (.bind .get fun connection => ?_)
  refine .bind (carries.of_moves (onExchange_moves (sub .exchange trivial) (sub .buffered trivial)
    (.inr (ProxyExchange.takeUpstream_reception _)))) fun taken => ?_
  refine .bind (sendData_carried carries sub fuel handle id _) fun failure => ?_
  cases failure <;> exact .pure _

end Writing

-- the parts that take an upstream and give it back
section Leasing
variable (sub : observing ≤ E) (pooled : E .pooled) (lease : E (.entry .lease)) (fuel : Nat)

omit [IsPreorder GatewayConnection R] in
include lease in
theorem leaseEntry_carried {entry : Entry} (kind : entry.kind = .lease) : Evolves R (note entry) :=
  carries.of_moves (note_moves (kind ▸ lease))

omit carries [IsPreorder GatewayConnection R] in
include lease in
theorem closeUpstream_moves (handle : Int) : Evolves (Moves E) (closeUpstream world handle) :=
  .bind (note_moves lease) fun _ => ask_moves world _

include sub lease in
theorem openAddresses_carried (id : Nat) (addresses : List Text) :
    Evolves R (openAddresses world fuel id addresses) := by
  induction addresses with
  | nil => exact .pure _
  | cons address rest ih =>
    refine .bind (carries.of_moves (proxyDeadlineFailure_moves id)) fun failure => ?_
    cases failure with
    | some failure => exact .pure _
    | none =>
      refine .bind (carries.of_moves (ask_moves world _)) fun handle => .ite ih ?_
      refine .bind (leaseEntry_carried carries lease rfl) fun _ =>
        .bind (connectLoop_carried carries sub fuel id) fun connected => ?_
      refine .bind (leaseEntry_carried carries lease rfl) fun _ => .ite (.pure _) ?_
      refine .bind (carries.of_moves (closeUpstream_moves lease handle)) fun _ => ?_
      split
      · exact .pure _
      · exact ih

include lease in
theorem poolOpened_carried (reserved : PooledUpstreamConnection) (handle : Int) :
    Evolves R (poolOpened world reserved handle) := by
  refine .ite ?_ (.ite (.bind (carries.of_moves (closeUpstream_moves lease handle)) fun _ =>
    .raise _) (.pure _))
  exact .bind (leaseEntry_carried carries lease rfl) fun _ =>
    .bind (leaseEntry_carried carries lease rfl) fun _ => .pure _

omit [IsPreorder GatewayConnection R] in
include pooled in
theorem setPooled_carried (value : Option PooledUpstreamConnection) : Evolves R (setPooled value) :=
  carries.of_moves (.modify fun connection => { Moves.still connection with pooled := .inl pooled })

include sub pooled lease

theorem openReservation_carried (reserved : PooledUpstreamConnection) (id : Nat) :
    Evolves R (openReservation world fuel reserved id) := by
  refine .bind (candidateAddresses_carried carries sub fuel _ id) fun found => ?_
  split
  split
  · exact .pure _
  · refine .bind (openAddresses_carried carries sub lease fuel id _) fun opened => ?_
    split
    split
    · exact .pure _
    · refine .bind (poolOpened_carried carries lease reserved _) fun result => ?_
      cases result <;> exact .bind (setPooled_carried carries pooled _) fun _ => .pure _

omit lease in
theorem awaitConnected_carried (reserved : PooledUpstreamConnection) (id : Nat) :
    Evolves R (awaitConnected world fuel reserved id) := by
  refine .ite (.pure _) (.bind (connectLoop_carried carries sub fuel id) fun connected => ?_)
  split
  split
  · exact .pure _
  · exact .ite (.pure _) (.bind (setPooled_carried carries pooled _) fun _ => .pure _)

theorem acquireUpstream_carried (id : Nat) : Evolves R (acquireUpstream world fuel id) := by
  refine .bind (carries.of_moves (ask_moves world _)) fun saturated =>
    .bind (carries.of_moves (nowMs_moves world)) fun _ => ?_
  refine .bind (carries.of_moves (ask_moves world _)) fun reserved => ?_
  cases reserved with
  | none => exact .pure _
  | some reserved =>
    refine .bind (leaseEntry_carried carries lease rfl) fun _ =>
      .bind (setPooled_carried carries pooled _) fun _ => ?_
    exact .ite (openReservation_carried carries sub pooled lease fuel _ id)
      (awaitConnected_carried carries sub pooled fuel _ id)

omit sub carries [IsPreorder GatewayConnection R] in
theorem releasePooled_moves (reusable : Bool) (reuse : reusable = true → E (.entry .reuse)) :
    Evolves (Moves E) (releasePooled world reusable) := by
  have keeps (value : Option PooledUpstreamConnection) : Evolves (Moves E) (setPooled value) :=
    .modify fun connection => { Moves.still connection with pooled := .inl pooled }
  refine .bind .get fun connection => ?_
  split
  · exact .pure _
  · refine .ite (.pure _) (.bind (nowMs_moves world) fun _ => ?_)
    refine .bind (note_moves lease) fun _ => .bind (ask_moves world _) fun room => ?_
    split
    · rename_i kept
      exact note_moves (reuse kept.2.1)
    · exact .bind (keeps _) fun _ => .bind (note_moves lease) fun _ => .when (closeUpstream_moves lease _)

end Leasing

-- the parts that read the request's body
section Sending
variable (sub : relaying ≤ E) (body : E (.entry .body)) (fuel : Nat)

include sub in
theorem forwardChunks_around {id : Nat} (read : Evolves R (readBodyChunk id)) (handle : Int) :
    Evolves R (forwardChunks world fuel handle id) := by
  refine .bind read fun chunk => .loop (fun chunk => ?_) fuel chunk
  split
  · exact .pure _
  · exact .pure _
  · refine .bind (carries.of_moves (onExchange_moves (sub .exchange trivial) (sub .buffered trivial)
      (.inr (ProxyExchange.feedRequestBody_reception _ _)))) fun _ => ?_
    refine .bind (proxyWriteQueued_carried carries sub fuel handle id) fun failure => ?_
    cases failure with
    | some failure => exact .pure _
    | none => exact .bind read fun _ => .pure _

include body

omit [IsPreorder GatewayConnection R] in
theorem readBodyChunk_carried (id : Nat) : Evolves R (readBodyChunk id) :=
  carries.of_moves (.bind (requestObject_moves id) fun _ => .bind (note_moves body) fun _ =>
    onBody_moves id BodyStream.grows_readChunk)

include sub

theorem forwardChunks_carried (handle : Int) (id : Nat) : Evolves R (forwardChunks world fuel handle id) :=
  forwardChunks_around carries sub fuel (readBodyChunk_carried carries body id) handle

theorem forwardBody_carried (handle : Int) (id : Nat) : Evolves R (forwardBody world fuel handle id) := by
  refine .loop (fun _ => .bind (carries.of_moves (requestObject_moves id)) fun object =>
    .ite (.pure _) ?_) fuel ()
  refine .bind .get fun connection => .bind (carries.of_moves (note_moves body)) fun _ =>
    .bind (carries.consume id) fun _ => ?_
  refine .bind (forwardChunks_carried carries sub body fuel handle id) fun failure => ?_
  cases failure with
  | some failure => exact .pure _
  | none =>
    refine .bind (carries.of_moves (requestObject_moves id)) fun object => .ite (.pure _) ?_
    refine .bind (carries.of_moves (proxyDeadlineFailure_moves id)) fun failure => ?_
    cases failure with
    | some failure => exact .pure _
    | none =>
      refine .bind (carries.of_moves (proxyRemainingMs_moves id)) fun budget => ?_
      refine .bind (proxyReadDownstreamBody_carried carries (observing_le_relaying.trans sub) id
        budget) fun failure => ?_
      cases failure <;> exact .pure _

theorem sendRequest_carried (response : E .response) (plan : ProxyPlan)
    (pooled : PooledUpstreamConnection) (id : Nat) :
    Evolves R (sendRequest world fuel plan pooled id) := by
  have timed (change : GatewayConnection → ProxyDeadline) :
      Evolves R (modify fun connection => { connection with deadline := change connection }) :=
    carries.of_moves (.modify fun connection => { Moves.still connection with
      deadline := .inl (sub .deadline trivial) })
  refine .bind (carries.of_moves (requestObject_moves id)) fun object => .bind (timed _) fun _ => ?_
  refine .bind (carries.of_moves (lift_moves _)) fun target => .bind .get fun connection => ?_
  refine .bind (carries.of_moves (.modify fun connection => { Moves.still connection with
    buffered := .inl (sub .buffered trivial) })) fun _ => ?_
  refine .bind (carries.of_moves (lift_moves _)) fun exchange => ?_
  refine .bind (carries.of_moves (.modify fun connection => { Moves.still connection with
    exchange := .inl (sub .exchange trivial)
    response := .inl response })) fun _ => ?_
  refine .bind (proxyWriteQueued_carried carries sub fuel _ id) fun failure => ?_
  split
  · exact .pure _
  · refine .bind (forwardBody_carried carries sub body fuel _ id) fun failure => ?_
    split
    · exact .pure _
    · refine .bind (forwardChunks_carried carries sub body fuel _ id) fun failure => ?_
      split
      · exact .pure _
      · refine .bind (carries.of_moves (requestObject_moves id)) fun object => ?_
        refine .bind (carries.of_moves (onExchange_moves (sub .exchange trivial)
          (sub .buffered trivial) (.inr (ProxyExchange.finishRequest_reception _)))) fun _ => ?_
        exact proxyWriteQueued_carried carries sub fuel _ id

end Sending

end Relaying

/-- The effects of a proxy attempt. -/
def attempting : Effect → Prop
  | .output | .buffered | .deadline | .exchange | .response | .pooled => True
  | .entry .admission | .entry .event => False
  | .entry _ => True
  | _ => False

/-- The effects of its `try`. -/
def exchanging : Effect → Prop
  | .output | .buffered | .deadline | .exchange | .response | .pooled => True
  | .entry .admission | .entry .event | .entry .attempt | .entry .reuse => False
  | .entry _ => True
  | _ => False

theorem relaying_le_exchanging : relaying ≤ exchanging := by
  intro effect allowed
  cases effect with
  | entry kind => cases kind <;> first | exact allowed | trivial
  | _ => first | exact allowed | trivial

theorem exchanging_le_attempting : exchanging ≤ attempting := by
  intro effect allowed
  cases effect with
  | entry kind => cases kind <;> first | exact allowed | trivial
  | _ => exact allowed

theorem relaying_le_attempting :
    relaying ≤ attempting := relaying_le_exchanging.trans exchanging_le_attempting

/-- The effects of an attempt but for what it records of the request's body. -/
def unread (E : Effect → Prop) (effect : Effect) : Prop := E effect ∧ effect ≠ .entry .body

theorem relaying_le_unread {F : Effect → Prop} (sub : relaying ≤ F) :
    relaying ≤ unread F := fun effect relays =>
  ⟨sub effect relays, by rintro rfl; exact relays⟩

section Attempts
variable {world : World} {E : Effect → Prop} {R : GatewayConnection → GatewayConnection → Prop}
  [IsPreorder GatewayConnection R] (carries : Carries world E R) (fuel : Nat)
include carries

section Around
variable {plan : ProxyPlan} {id : Nat} (send : ∀ pooled, Evolves R (sendRequest world fuel plan pooled id))
include send

theorem exchangeOnce_around (sub : unread exchanging ≤ E) :
    Evolves R (exchangeOnce world fuel plan id) := by
  have relays := (relaying_le_unread relaying_le_exchanging).trans sub
  have allowed {effect : Effect} (is : exchanging effect) (other : effect ≠ .entry .body) :
      E effect := sub effect ⟨is, other⟩
  have timed (change : GatewayConnection → ProxyDeadline) :
      Evolves R (modify fun connection => { connection with deadline := change connection }) :=
    carries.of_moves (.modify fun connection => { Moves.still connection with
      deadline := .inl (allowed trivial nofun) })
  refine .bind (acquireUpstream_carried carries (observing_le_relaying.trans relays) (allowed trivial nofun)
    (allowed trivial nofun) fuel id) fun acquired => ?_
  cases acquired with
  | error failure => exact .pure _
  | ok pooled =>
    refine .bind (send pooled) fun failure => ?_
    split
    · exact .bind (carries.of_moves exchangeView_moves) fun _ => .pure _
    · refine .bind (carries.of_moves (nowMs_moves world)) fun now => .bind (timed _) fun _ => ?_
      refine .bind (.loop (fun _ =>
        receivePass_carried carries (delivering_le_relaying.trans relays) fuel (allowed trivial nofun)
        (allowed trivial nofun) _ id) fuel ()) fun result => ?_
      split
      · exact .pure _
      · exact .bind (timed _) fun _ => .bind (carries.of_moves exchangeView_moves) fun _ => .pure _

omit carries send in
theorem recoverProtocol_carried (outcome : Except Exn (AttemptResult × Bool)) :
    Evolves R (recoverProtocol outcome) := by
  unfold recoverProtocol
  split
  · exact .bind (.bind .get fun _ => .pure _) fun _ => .pure _
  · exact .pure _

variable (sub : unread attempting ≤ E)
include sub

theorem proxyExchangeAttempt_around (number : Nat) :
    Evolves R (proxyExchangeAttempt world fuel plan id number) := by
  have allowed {effect : Effect} (is : attempting effect) (other : effect ≠ .entry .body) :
      E effect := sub effect ⟨is, other⟩
  have once : unread exchanging ≤ E := fun effect is => allowed (exchanging_le_attempting effect is.1) is.2
  have recorded {entry : Entry} (kind : E (.entry entry.kind)) : Evolves R (note entry) :=
    carries.of_moves (note_moves kind)
  refine .bind (recorded (allowed trivial nofun)) fun _ =>
    .bind (carries.of_moves (nowMs_moves world)) fun now => ?_
  refine .bind (carries.of_moves (.modify fun connection => { Moves.still connection with
    deadline := .inl (allowed trivial nofun)
    pooled := .inl (allowed trivial nofun)
    exchange := .inl (allowed trivial nofun)
    response := .inl (allowed trivial nofun) })) fun _ => ?_
  refine .bind (.bind (carries.of_moves (ask_moves world _)) fun admitted =>
    .bind (.when (recorded (allowed trivial nofun))) fun _ => .pure _) fun admitted => .ite (.pure _) ?_
  refine .bind (.attempt (exchangeOnce_around carries fuel send once)) fun outcome => ?_
  refine .bind (recoverProtocol_carried outcome) fun outcome => .bind .get fun connection => ?_
  refine .bind (.settle_cons (.when (carries.of_moves (onExchange_moves (allowed trivial nofun)
    (allowed trivial nofun) (.inr (ProxyExchange.cancel_reception _))))) (.settle_cons
    (carries.of_moves (releasePooled_moves (allowed trivial nofun) (allowed trivial nofun) _ fun _ =>
      allowed trivial nofun)) (.settle_cons
      (recorded (allowed trivial nofun)) .settle_nil))) fun error => ?_
  split
  · exact .raise _
  · exact .bind (.raiseFirst error) fun _ => .pure _

theorem proxyAttempts_around (remaining number : Nat) (last : AttemptResult) :
    Evolves R (proxyAttempts world fuel plan id remaining number last) := by
  induction remaining generalizing number last with
  | zero => exact .pure _
  | succ remaining ih =>
    refine .bind (proxyExchangeAttempt_around carries fuel send sub number) fun result => ?_
    split
    · exact .pure _
    · exact .bind (carries.of_moves (requestObject_moves id)) fun object => .ite (ih _ _) (.pure _)

theorem proxyResult_around : Evolves R (proxyResult world fuel plan id) :=
  .bind .get fun _ => .ite (proxyAttempts_around carries fuel send sub _ _ _) (.pure _)

theorem driveProxy_around
    (closing : Evolves R (modify fun connection => { connection with closeAfterFlush := true })) :
    Evolves R (driveProxy world fuel plan id) := by
  have writes := (writing_le_relaying.trans (relaying_le_unread relaying_le_attempting)).trans sub
  refine .bind (proxyResult_around carries fuel send sub) fun result => ?_
  refine .bind (carries.of_moves (requestObject_moves id)) fun object => ?_
  split
  · exact closing
  · refine .bind (.ite (carries.of_moves (queueText_moves world writes _ _ _)) ?_) fun _ =>
      carries.of_moves (hook_moves world)
    exact .bind closing fun _ => .bind (carries.of_moves (lift_moves _)) fun _ => .pure _
  · exact .bind (carries.of_moves (lift_moves _)) fun _ => carries.of_moves (hook_moves world)

end Around

theorem exchangeOnce_carried (sub : exchanging ≤ E) (plan : ProxyPlan) (id : Nat) :
    Evolves R (exchangeOnce world fuel plan id) :=
  exchangeOnce_around carries fuel
    (sendRequest_carried carries (relaying_le_exchanging.trans sub) (sub (.entry .body) trivial) fuel
    (sub .response trivial) plan · id) fun effect is => sub effect is.1

theorem driveProxy_carried (sub : attempting ≤ E)
    (closing : Evolves R (modify fun connection => { connection with closeAfterFlush := true }))
    (plan : ProxyPlan) (id : Nat) :
    Evolves R (driveProxy world fuel plan id) :=
  driveProxy_around carries fuel
    (sendRequest_carried carries (relaying_le_attempting.trans sub) (sub (.entry .body) trivial) fuel
    (sub .response trivial) plan · id) (fun effect is => sub effect is.1) closing

end Attempts

section Exchange
variable {connection : GatewayConnection}

theorem exchangeView_bind {α : Type} {exchange : ProxyExchange}
    (found : connection.exchange = some exchange)
    {next : ProxyExchange → Call α} {ok : α → GatewayConnection → Prop}
    {bad : Halt Exn → GatewayConnection → Prop}
    (later : Ends (next exchange) connection ok bad) : Ends (exchangeView >>= next) connection ok bad := by
  rw [ends_bind]
  unfold Ends exchangeView
  rw [found]
  exact later

theorem onExchange_ends {world : World} {α : Type} {call : ProxyExchange.Call α} {exchange : ProxyExchange}
    (found : connection.exchange = some exchange) {ok : α → GatewayConnection → Prop}
    {bad : Halt Exn → GatewayConnection → Prop}
    (returned : ∀ accounting next buffered a, call { exchange with accounting := accounting } =
      (next, .ok a) → ok a { connection with exchange := some next, buffered := buffered })
    (raised : ∀ next buffered error, bad (.raised error) { connection with
      exchange := some next, buffered := buffered }) :
    Ends (onExchange world call) connection ok bad := by
  unfold Ends onExchange
  rw [found]
  simp only
  generalize run : call { exchange with accounting := some _ } = result
  obtain ⟨next, error | a⟩ := result
  · exact raised next _ error
  · exact returned _ next _ a run

end Exchange

/-- The effects of what stands around the `try` of an attempt. -/
def bracketing : Effect → Prop
  | .buffered | .deadline | .pooled | .exchange | .response => True
  | .entry .attempt | .entry .lease | .entry .reuse => True
  | _ => False

section Bracket
variable {world : World} {fuel : Nat} {plan : ProxyPlan} {id number : Nat} {connection : GatewayConnection}

theorem recoverProtocol_ends {Q : AttemptResult → GatewayConnection → Prop} {B : GatewayConnection → Prop}
    {outcome : Except Exn (AttemptResult × Bool)} (protocol : ∀ code, B connection →
      Q ⟨connection.exchange.elim 0 (·.responseStatus), some (if code = "buffer-overload" then
        .overloaded else .protocol), connection.exchange.elim false (·.responseCommitted)⟩ connection)
    (failed : ∀ error, outcome = .error error → B connection)
    (returned : ∀ result, outcome = .ok result → Q result.1 connection) :
    Ends (recoverProtocol outcome) connection (fun outcome after => after = connection ∧
      ∀ result, outcome = .ok result → Q result.1 connection) (fun _ _ => False) := by
  unfold recoverProtocol
  split
  · refine ⟨rfl, ?_⟩
    rintro _ ⟨⟩
    exact protocol _ (failed _ rfl)
  · exact ⟨rfl, returned⟩

/-- What `_proxy_exchange_attempt` does after its `try` body. -/
def concludeAttempt (world : World) (outcome : Except Exn (AttemptResult × Bool)) : Call AttemptResult := do
  let outcome ← recoverProtocol outcome
  let connection ← get
  let error ← settle [
    when connection.exchange.isSome (onExchange world (ProxyExchange.cancel "attempt complete")),
    releasePooled world (outcome.toOption.elim false (·.2)),
    GatewayConnection.release .upstream]
  match outcome with
  | .error primary => raise primary
  | .ok (result, _) =>
    raiseFirst error
    return result

/-- What holds of the result of the `try`, or of what a protocol error makes of it, holds of the
attempt's result. -/
theorem proxyExchangeAttempt_ends {Q : AttemptResult → GatewayConnection → Prop}
    {B : GatewayConnection → Prop}
    (refused : ∀ c, Moves bracketing connection c → Q ⟨0, some .overloaded, false⟩ c)
    (once : ∀ c, Moves bracketing connection c → c.exchange = none →
      Ends (exchangeOnce world fuel plan id) c (fun result => Q result.1) (fun _ => B))
    (protocol : ∀ c code, B c → Q ⟨c.exchange.elim 0 (·.responseStatus),
      some (if code = "buffer-overload" then .overloaded else .protocol),
      c.exchange.elim false (·.responseCommitted)⟩ c)
    (stable : ∀ result before after, Moves bracketing before after → Q result before → Q result after) :
    Ends (proxyExchangeAttempt world fuel plan id number) connection Q (fun _ _ => True) := by
  have ignored {α : Type} {call : Call α} {c : GatewayConnection} {ok : α → GatewayConnection → Prop}
      (moves : Evolves (Moves bracketing) call) (later : ∀ a after, Moves bracketing c after → ok a after) :
      Ends call c ok (fun _ _ => True) :=
    moves.ends.mono (fun a after moved => later a after moved) fun _ _ _ => trivial
  unfold proxyExchangeAttempt
  rw [ends_bind]
  refine ignored (note_moves trivial) fun _ c noted => ?_
  rw [ends_bind]
  refine ignored (nowMs_moves world) fun now c timed => ?_
  rw [ends_bind]
  have starts : Moves bracketing c { c with
      deadline := ProxyDeadline.init plan.spec.timeouts now, pooled := none, exchange := none } :=
    { Moves.still c with
      deadline := .inl trivial, pooled := .inl trivial, exchange := .inl trivial, response := .inl trivial }
  show Ends (grant world World.admitUpstream .upstream >>= _) { c with
    deadline := ProxyDeadline.init plan.spec.timeouts now, pooled := none, exchange := none } _ _
  rw [ends_bind]
  have admits : Evolves (Moves (· = .entry .lease)) (grant world World.admitUpstream .upstream) :=
    .bind (ask_moves world _) fun admitted => .bind (.when (note_moves rfl)) fun _ => .pure _
  refine admits.ends.mono (fun admitted c' entered => ?_) fun _ _ _ => trivial
  have begun := ((noted.trans timed).trans starts).trans (entered.mono (by rintro _ rfl; trivial))
  refine .ite (fun _ => refused c' begun) fun _ => ?_
  have closes {c : GatewayConnection} (outcome : Except Exn (AttemptResult × Bool))
    (failed : ∀ error, outcome = .error error → B c)
      (returned : ∀ result, outcome = .ok result → Q result.1 c) :
        Ends (concludeAttempt world outcome) c Q (fun _ _ => True) := by
    unfold concludeAttempt
    rw [ends_bind]
    refine (recoverProtocol_ends (protocol c) failed returned).mono (fun outcome after facts => ?_)
      fun _ _ => False.elim
    obtain ⟨rfl, returned⟩ := facts
    rw [get_bind, ends_bind]
    have cleanups : Evolves (Moves bracketing) (settle [
        when after.exchange.isSome (onExchange world (ProxyExchange.cancel "attempt complete")),
        releasePooled world (outcome.toOption.elim false (·.2)),
        GatewayConnection.release .upstream] : Call (Option Exn)) := by
      refine .settle_cons
        (.when (onExchange_moves trivial trivial (.inr (ProxyExchange.cancel_reception _)))) ?_
      exact .settle_cons (releasePooled_moves trivial trivial _ fun _ => trivial)
        (.settle_cons (note_moves trivial) .settle_nil)
    refine ignored cleanups fun error c moved => ?_
    cases outcome with
    | error primary => trivial
    | ok result =>
      rw [ends_bind]
      refine ignored (.raiseFirst error) fun _ c' moved' => ?_
      exact stable _ _ _ (moved.trans moved') (returned _ rfl)
  rw [ends_bind, ends_attempt]
  refine (once c' begun (entered.exchange.resolve_left (by simp))).mono (fun result c held => ?_)
    fun halt c raised => ?_
  · exact closes (.ok result) (by simp) (by rintro _ ⟨⟩; exact held)
  · cases halt with
    | raised error => exact closes (.error error) (fun _ _ => raised) (by simp)
    | parked => trivial
    | unfinished => trivial

end Bracket

end GatewayConnection
end PccGateway
