import PccGateway.Proxy.ExchangeRun
import PccGateway.Server.Run

namespace PccGateway

/-- The groups of entries that a part of the code writes. -/
inductive EntryKind where
  | io
  | queued
  | exchange
  | response
  | lease
  | reuse
  | admission
  | event
  | resolver
  | attempt
  | body
  deriving DecidableEq

def Entry.kind : Entry → EntryKind
  | .clientRead _ | .clientWrite _ => .io
  | .queued _ => .queued
  | .upstreamWrite .. => .exchange
  | .upstreamRead .. | .upstreamClosed _ => .response
  | .leased _ | .returned | .unleased | .opened _ | .connectOver _ | .closed _ => .lease
  | .idle _ => .reuse
  | .admitted .upstream | .released .upstream => .lease
  | .admitted .request | .released .request => .admission
  | .admitted .queued | .released .queued => .event
  | .decoded _ | .handled _ | .dropped _ | .chunkReleased _ | .feedRaised => .event
  | .resolverError => .resolver
  | .attempt _ => .attempt
  | .bodyPass _ | .bodyRead _ => .body

/-- What a method may change, apart from the tick, the deadlines and the objects of requests it has. -/
inductive Effect where
  | closed
  | owners
  | flow
  | deferred
  | codec
  | output
  | buffered
  | deadline
  | pooled
  | exchange
  | response
  | entry (kind : EntryKind)

/-- What no method undoes: a request keeps its head, its deadline and the mode of its body; a body that
has ended and a cancellation stay, and what was consumed of a body is not put back. -/
structure RequestObject.Grows (before after : RequestObject) : Prop where
  request : { after.request with trailers := [] } = { before.request with trailers := [] }
  streaming : after.body.streaming = before.body.streaming
  ended : before.body.ended = true → after.body.ended = true
  consumed : before.body.consumedBytes ≤ after.body.consumedBytes
  deadline : after.cancellation.deadlineMs = before.cancellation.deadlineMs
  cancelled : before.cancellation.cancelled = true → after.cancellation.cancelled = true

theorem RequestObject.Grows.rfl {object : RequestObject} : object.Grows object :=
  ⟨Eq.refl _, Eq.refl _, id, le_rfl, Eq.refl _, id⟩

theorem RequestObject.Grows.trans {first second third : RequestObject} (before : first.Grows second)
    (after : second.Grows third) : first.Grows third where
  request := after.request.trans before.request
  streaming := after.streaming.trans before.streaming
  ended := fun ended => after.ended (before.ended ended)
  consumed := before.consumed.trans after.consumed
  deadline := after.deadline.trans before.deadline
  cancelled := fun cancelled => after.cancelled (before.cancelled cancelled)

/-- The part of `Grows` that is about the body. -/
structure BodyStream.Grows (before after : BodyStream) : Prop where
  streaming : after.streaming = before.streaming
  ended : before.ended = true → after.ended = true
  consumed : before.consumedBytes ≤ after.consumedBytes

namespace BodyStream

theorem Grows.trans {first second third : BodyStream} (before : first.Grows second)
    (after : second.Grows third) :
    first.Grows third where
  streaming := after.streaming.trans before.streaming
  ended := fun ended => after.ended (before.ended ended)
  consumed := before.consumed.trans after.consumed

theorem grows_self {body : BodyStream} : body.Grows body := ⟨rfl, id, le_rfl⟩

theorem grows_finish {body : BodyStream} : body.Grows body.finish := ⟨rfl, fun _ => rfl, le_rfl⟩

theorem grows_cancel {body : BodyStream} : body.Grows body.cancel := ⟨rfl, id, le_rfl⟩

theorem grows_close {body : BodyStream} : body.Grows body.close := by
  unfold close
  split
  · exact grows_self
  · exact ⟨rfl, id, le_rfl⟩

theorem grows_readChunk (body : BodyStream) : body.Grows (readChunk body).1 := by
  unfold readChunk
  split
  · exact grows_self
  · split
    · exact ⟨rfl, id, Nat.le_add_right _ _⟩
    · split
      · exact grows_self
      · split <;> exact grows_self

theorem grows_feed (data : Bytes) (body : BodyStream) : body.Grows (feed data body).1 := by
  unfold feed
  split
  · exact grows_self
  · split
    · exact grows_self
    · split
      · exact grows_self
      · exact ⟨rfl, id, le_rfl⟩

theorem grows_childReads (reads : Nat) (body : BodyStream) :
    body.Grows (GatewayConnection.childReads reads body) := by
  induction reads generalizing body with
  | zero => exact grows_self
  | succ reads ih => exact (grows_readChunk body).trans (ih _)

end BodyStream

theorem RequestObject.Grows.of_body {object : RequestObject} {body : BodyStream}
    (grows : object.body.Grows body) :
    object.Grows { object with body := body } :=
  ⟨Eq.refl _, grows.streaming, grows.ended, grows.consumed, Eq.refl _, id⟩

namespace GatewayConnection
open Thread Method

/-- Who holds a request: the parser, or one of the three kinds of pending response. -/
structure Owners where
  currentRequest : Option Nat
  currentAdmitted : Bool
  pendingProxy : Option (ProxyPlan × Nat)
  pendingLocal : Option Nat
  pendingStream : Option PendingStream
  requests : Nat

def owners (connection : GatewayConnection) : Owners where
  currentRequest := connection.currentRequest
  currentAdmitted := connection.currentAdmitted
  pendingProxy := connection.pendingProxy
  pendingLocal := connection.pendingLocal
  pendingStream := connection.pendingStream
  requests := connection.requests.length

/-- What decides whether the connection goes on after a response. -/
structure Flow where
  currentKeepAlive : Bool
  requestsCompleted : Nat
  closeAfterFlush : Bool

def flow (connection : GatewayConnection) : Flow where
  currentKeepAlive := connection.currentKeepAlive
  requestsCompleted := connection.requestsCompleted
  closeAfterFlush := connection.closeAfterFlush

/-- A move with the effects `E` at most. -/
structure Moves (E : Effect → Prop) (before after : GatewayConnection) : Prop where
  config : after.config = before.config
  requests : ∀ (id : Nat) object, before.requests[id]? = some object →
    ∃ object', after.requests[id]? = some object' ∧ object.Grows object'
  closed : E .closed ∨ after.closed = before.closed
  owners : E .owners ∨ after.owners = before.owners
  flow : E .flow ∨ after.flow = before.flow
  deferred : E .deferred ∨ after.deferredEvents = before.deferredEvents
  codec : E .codec ∨ after.codec = before.codec
  output : E .output ∨ after.output = before.output
  buffered : E .buffered ∨ after.buffered = before.buffered
  deadline : E .deadline ∨ after.deadline = before.deadline
  pooled : E .pooled ∨ after.pooled = before.pooled
  exchange : E .exchange ∨ after.exchange = before.exchange
  response : E .response ∨
    after.exchange.map ProxyExchange.reception = before.exchange.map ProxyExchange.reception
  trace : ∃ added, after.trace = before.trace ++ added ∧ ∀ entry ∈ added, E (.entry entry.kind)

variable {E : Effect → Prop}

/-- Nothing moves. With some fields replaced this is also the proof that the rest stays. -/
theorem Moves.still (connection : GatewayConnection) : Moves E connection connection where
  config := rfl
  requests := fun _ object found => ⟨object, found, .rfl⟩
  closed := .inr rfl
  owners := .inr rfl
  flow := .inr rfl
  deferred := .inr rfl
  codec := .inr rfl
  output := .inr rfl
  buffered := .inr rfl
  deadline := .inr rfl
  pooled := .inr rfl
  exchange := .inr rfl
  response := .inr rfl
  trace := ⟨[], (List.append_nil _).symm, by simp⟩

theorem Moves.trans {first second third : GatewayConnection} (before : Moves E first second)
    (after : Moves E second third) : Moves E first third := by
  have chain {α : Type} {e : Effect} {v : GatewayConnection → α} (one : E e ∨ v second = v first)
      (two : E e ∨ v third = v second) : E e ∨ v third = v first :=
    one.elim .inl fun same => two.imp_right fun same' => same'.trans same
  obtain ⟨added, grown, kinds⟩ := before.trace
  obtain ⟨more, grown', kinds'⟩ := after.trace
  refine {
    config := after.config.trans before.config
    requests := fun id object found => ?_
    closed := chain before.closed after.closed
    owners := chain before.owners after.owners
    flow := chain before.flow after.flow
    deferred := chain before.deferred after.deferred
    codec := chain before.codec after.codec
    output := chain before.output after.output
    buffered := chain before.buffered after.buffered
    deadline := chain before.deadline after.deadline
    pooled := chain before.pooled after.pooled
    exchange := chain before.exchange after.exchange
    response := chain (v := fun connection => connection.exchange.map ProxyExchange.reception)
      before.response after.response
    trace := ⟨added ++ more, by rw [grown', grown, List.append_assoc], ?_⟩ }
  · obtain ⟨middle, found', grows⟩ := before.requests id object found
    obtain ⟨last, found'', grows'⟩ := after.requests id middle found'
    exact ⟨last, found'', grows.trans grows'⟩
  · intro entry member
    exact (List.mem_append.mp member).elim (kinds entry) (kinds' entry)

instance : IsPreorder GatewayConnection (Moves E) where
  refl := Moves.still
  trans := fun _ _ _ => Moves.trans

theorem Moves.mono {F : Effect → Prop} {before after : GatewayConnection} (moves : Moves E before after)
    (wider : E ≤ F) : Moves F before after where
  config := moves.config
  requests := moves.requests
  closed := moves.closed.imp_left (wider _)
  owners := moves.owners.imp_left (wider _)
  flow := moves.flow.imp_left (wider _)
  deferred := moves.deferred.imp_left (wider _)
  codec := moves.codec.imp_left (wider _)
  output := moves.output.imp_left (wider _)
  buffered := moves.buffered.imp_left (wider _)
  deadline := moves.deadline.imp_left (wider _)
  pooled := moves.pooled.imp_left (wider _)
  exchange := moves.exchange.imp_left (wider _)
  response := moves.response.imp_left (wider _)
  trace := by
    obtain ⟨added, grown, kinds⟩ := moves.trace
    exact ⟨added, grown, fun entry member => wider _ (kinds entry member)⟩

section Run
variable {α : Type} {connection : GatewayConnection} {ok : α → GatewayConnection → Prop}
  {bad : Halt Exn → GatewayConnection → Prop}

theorem get_bind {next : GatewayConnection → Call α} :
    Ends (get >>= next) connection ok bad ↔ Ends (next connection) connection ok bad := Iff.rfl

theorem modify_bind {change : GatewayConnection → GatewayConnection} {next : Unit → Call α} :
    Ends (modify change >>= next) connection ok bad ↔ Ends (next ()) (change connection) ok bad := Iff.rfl

theorem lift_bind {β : Type} {result : Except Exn β} {next : β → Call α}
    (returned : ∀ b, result = .ok b → Ends (next b) connection ok bad)
    (raised : ∀ error, bad (.raised error) connection) :
    Ends (lift result >>= next) connection ok bad :=
  ends_bind.mpr (ends_reraise returned raised)

end Run

section Calm
variable (world : World)

theorem note_moves {entry : Entry} (kind : E (.entry entry.kind)) :
    Evolves (Moves E) (note entry) := fun connection =>
  { Moves.still connection with trace := ⟨[entry], rfl, by simpa using kind⟩ }

theorem lift_moves {α : Type} (result : Except Exn α) : Evolves (Moves E) (lift result) := .reraise result

/-- The objects of requests change in place. -/
theorem moves_of_modify {connection : GatewayConnection} {change : RequestObject → RequestObject}
    {id tick : Nat} (grows : ∀ object, RequestObject.Grows object (change object)) :
    Moves E connection { connection with tick := tick, requests := connection.requests.modify id change } :=
  { Moves.still connection with
    owners := .inr (by simp [owners])
    requests := fun other object found => by
      simp only [List.getElem?_modify, found, Option.map_eq_map, Option.map_some, Option.some.injEq]
      split
      · exact ⟨_, rfl, grows object⟩
      · exact ⟨_, rfl, .rfl⟩ }

theorem changeRequest_moves {change : RequestObject → RequestObject} (id : Nat)
    (grows : ∀ object, RequestObject.Grows object (change object)) :
    Evolves (Moves E) (changeRequest id change) :=
  fun connection => @moves_of_modify E connection change id connection.tick grows

theorem changeBody_moves {change : BodyStream → BodyStream} (id : Nat)
    (grows : ∀ body, BodyStream.Grows body (change body)) : Evolves (Moves E) (changeBody id change) :=
  changeRequest_moves id fun object => .of_body (grows object.body)

theorem cancelRequest_moves (id : Nat) (reason : String) : Evolves (Moves E) (cancelRequest id reason) :=
  changeRequest_moves id fun _ => ⟨rfl, rfl, fun ended => ended, le_rfl, rfl, fun _ => rfl⟩

theorem ask_moves {α : Type} (answer : World → Nat → Except Exn α) :
    Evolves (Moves E) (ask world answer) := by
  intro connection
  unfold ask
  refine trans_of (Moves E) ?_ (Evolves.reraise (answer world connection.tick) _)
  split
  · exact { Moves.still connection with }
  · exact moves_of_modify fun object => .of_body (BodyStream.grows_childReads _ _)

/-- An observation is answered or raises; it never waits. -/
theorem ask_ends {α : Type} (answer : World → Nat → Except Exn α) (connection : GatewayConnection) :
    Ends (ask world answer) connection (fun _ after => Moves E connection after)
      (fun halt after => (∃ error, halt = .raised error) ∧ Moves E connection after) := by
  have moved : Moves E connection (ask world answer connection).1 := ask_moves world answer connection
  revert moved
  unfold Ends ask
  cases answer world connection.tick with
  | ok value => exact id
  | error error => exact fun moved => ⟨⟨error, rfl⟩, moved⟩

theorem ask_prompt {α : Type} (answer : World → Nat → Except Exn α) :
    Prompt (ask world answer) := fun connection =>
  Prompt.reraise (answer world connection.tick) _

theorem nowMs_moves : Evolves (Moves E) (nowMs world) := ask_moves world _

theorem hook_moves : Evolves (Moves E) (hook world) := ask_moves world _

theorem requestObject_moves (id : Nat) : Evolves (Moves E) (requestObject id) := by
  intro connection
  unfold requestObject
  split <;> exact { Moves.still connection with }

theorem requestObject_found {connection : GatewayConnection} {id : Nat} {object : RequestObject}
    (found : connection.requests[id]? = some object) :
    requestObject id connection = (connection, .ok object) := by
  simp only [requestObject, found]

theorem requestObject_missing {connection : GatewayConnection} {id : Nat}
    (missing : connection.requests[id]? = none) :
    requestObject id connection = (connection, .error (.raised (.lookup "request"))) := by
  simp only [requestObject, missing]

theorem onBody_moves {α : Type} (id : Nat) {call : Thread BodyStream Exn α}
    (grows : ∀ body, BodyStream.Grows body (call body).1) : Evolves (Moves E) (onBody id call) := by
  intro connection
  unfold onBody
  rw [bind_run]
  cases found : connection.requests[id]? with
  | none =>
    rw [requestObject_missing found]
    exact { Moves.still connection with }
  | some object =>
    rw [requestObject_found found]
    refine { Moves.still connection with
      owners := .inr (by simp [owners, Method.on])
      requests := fun other old there => ?_ }
    simp only [Method.on, List.getElem?_set]
    by_cases same : id = other
    · subst same
      rw [found] at there
      cases there
      have inside := (List.getElem?_eq_some_iff.mp found).1
      exact ⟨{ object with body := (call object.body).1 }, by simp [inside], .of_body (grows _)⟩
    · exact ⟨old, by simp [same, there], .rfl⟩

theorem restartWriteDeadline_moves : Evolves (Moves E) (restartWriteDeadline world) :=
  .bind (nowMs_moves world) fun _ => .modify fun connection => { Moves.still connection with }

end Calm

/-- The effects of queueing and consuming output. -/
def writing : Effect → Prop
  | .output | .buffered | .entry .queued => True
  | _ => False

/-- The effects of giving up or taking over a request. -/
def settling : Effect → Prop
  | .owners | .flow | .entry .admission => True
  | _ => False

/-- The effects of serving the client, down to its socket. -/
def serving : Effect → Prop
  | .owners | .flow | .deferred | .codec | .output | .buffered => True
  | .entry .io | .entry .queued | .entry .admission | .entry .event => True
  | _ => False

theorem writing_le_serving : writing ≤ serving := by
  intro effect allowed
  cases effect with
  | entry kind => cases kind <;> first | exact allowed | trivial
  | _ => first | exact allowed | trivial

theorem settling_le_serving : settling ≤ serving := by
  intro effect allowed
  cases effect with
  | entry kind => cases kind <;> first | exact allowed | trivial
  | _ => first | exact allowed | trivial

section Writing
variable (world : World)

theorem reserveBuffered_moves (allowed : E .buffered) (count : Nat) :
    Evolves (Moves E) (reserveBuffered world count) := by
  intro connection
  unfold reserveBuffered
  split
  · exact { Moves.still connection with buffered := .inl allowed }
  · exact { Moves.still connection with }

theorem releaseBuffered_moves (allowed : E .buffered) (count : Nat) :
    Evolves (Moves E) (releaseBuffered world count) := by
  intro connection
  unfold releaseBuffered
  split
  · exact { Moves.still connection with }
  · exact { Moves.still connection with buffered := .inl allowed }

theorem onOutput_moves {α : Type} (allowed : E .output) (call : Method ChannelBuffer Exn α) :
    Evolves (Moves E) (onOutput call) :=
  .call fun connection => { Moves.still connection with output := .inl allowed }

theorem onCodec_moves {α : Type} (allowed : E .codec) (call : Method Http1ServerCodec Exn α) :
    Evolves (Moves E) (onCodec call) :=
  .call fun connection => { Moves.still connection with codec := .inl allowed }

theorem queueBytes_moves (sub : writing ≤ E) (data : Bytes) :
    Evolves (Moves E) (queueBytes world data) := by
  refine .ite (.pure _) ?_
  refine .bind (reserveBuffered_moves world (sub .buffered trivial) _) fun reserved => .ite (.raise _) ?_
  refine .bind (.attempt (onOutput_moves (sub .output trivial) _)) fun appended => ?_
  cases appended with
  | error error => exact .bind (releaseBuffered_moves world (sub .buffered trivial) _) fun _ => .raise _
  | ok transition =>
    refine .bind (note_moves (sub (.entry .queued) trivial)) fun _ => .bind .get fun connection => ?_
    exact .bind (.when (restartWriteDeadline_moves world)) fun _ => .when (hook_moves world)

theorem consumeOutput_moves (sub : writing ≤ E) (count : Int) :
    Evolves (Moves E) (consumeOutput world count) := by
  refine .ite (.pure _) ?_
  refine .bind (onOutput_moves (sub .output trivial) _) fun transition => ?_
  refine .bind (releaseBuffered_moves world (sub .buffered trivial) _) fun _ => ?_
  refine .bind (.when (hook_moves world)) fun _ => .bind .get fun connection => ?_
  exact .ite (.modify fun connection => { Moves.still connection with }) (restartWriteDeadline_moves world)

theorem responsePayload_moves (method : Text) (response : Response) :
    Evolves (Moves E) (responsePayload method response) := by
  refine .bind .get fun connection => .ite (lift_moves _) ?_
  exact .bind (lift_moves _) fun body => .bind (lift_moves _) fun head => .pure _

theorem queueText_moves (sub : writing ≤ E) (method : Text) (body : String) (status : Nat) :
    Evolves (Moves E) (queueText world method body status) :=
  .bind (lift_moves _) fun response => .bind (responsePayload_moves method response) fun payload =>
    queueBytes_moves world sub payload

end Writing

section Flowing
variable (world : World) (allowed : E .flow)
include allowed

theorem closing_moves :
    Evolves (Moves E) (modify fun connection => { connection with closeAfterFlush := true }) :=
  .modify fun connection => { Moves.still connection with flow := .inl allowed }

theorem completed_moves :
    Evolves (Moves E) (modify fun connection =>
      { connection with requestsCompleted := connection.requestsCompleted + 1 }) :=
  .modify fun connection => { Moves.still connection with flow := .inl allowed }

theorem retire_moves : Evolves (Moves E) (retire world) := by
  refine .modify fun connection => ?_
  split
  · exact { Moves.still connection with flow := .inl allowed }
  · exact { Moves.still connection with }

end Flowing

section Settling
variable (world : World) (sub : settling ≤ E)
include sub

theorem modify_moves {change : GatewayConnection → GatewayConnection}
    (moves : ∀ connection, Moves settling connection (change connection)) :
    Evolves (Moves E) (modify change) :=
  fun connection => (moves connection).mono sub

theorem release_moves : Evolves (Moves E) (release .request) := note_moves (sub (.entry .admission) trivial)

theorem abortCurrentRequest_moves (reason : String) : Evolves (Moves E) (abortCurrentRequest reason) := by
  refine .bind .get fun connection => ?_
  split
  · exact .pure ()
  · rename_i id _
    refine .bind (modify_moves sub fun connection => { Moves.still connection with
      owners := .inl trivial }) fun _ => ?_
    refine .bind (cancelRequest_moves id reason) fun _ => ?_
    refine .ite (changeBody_moves id fun _ => BodyStream.grows_cancel) (.ite ?_ (.pure _))
    refine .bind (changeBody_moves id fun _ => BodyStream.grows_cancel) fun _ => ?_
    exact .bind (changeBody_moves id fun _ => BodyStream.grows_close) fun _ => .when (release_moves sub)

theorem cancelPendingProxy_moves (reason : String) : Evolves (Moves E) (cancelPendingProxy reason) := by
  refine .bind .get fun connection => ?_
  split
  · exact .pure ()
  · rename_i id _
    refine .bind (modify_moves sub fun connection => { Moves.still connection with
      owners := .inl trivial }) fun _ => ?_
    refine .bind (cancelRequest_moves id reason) fun _ => ?_
    refine .bind (changeBody_moves id fun _ => BodyStream.grows_cancel) fun _ => ?_
    exact .bind (changeBody_moves id fun _ => BodyStream.grows_close) fun _ => release_moves sub

theorem cancelPendingStream_moves (reason : String) : Evolves (Moves E) (cancelPendingStream reason) := by
  refine .bind .get fun connection => ?_
  split
  · exact .pure ()
  · rename_i stream _
    refine .bind (modify_moves sub fun connection => { Moves.still connection with
      owners := .inl trivial }) fun _ => ?_
    refine .bind (cancelRequest_moves _ reason) fun _ => ?_
    exact .bind (changeBody_moves _ fun _ => BodyStream.grows_close) fun _ => .when (release_moves sub)

theorem completeStreamingResponse_moves : Evolves (Moves E) (completeStreamingResponse world) := by
  refine .bind .get fun connection => ?_
  split
  · exact .pure ()
  · rename_i stream _
    refine .bind (modify_moves sub fun connection => { Moves.still connection with
      owners := .inl trivial
      flow := .inl trivial }) fun _ => ?_
    refine .bind (.settle_cons (hook_moves world) ?_) fun error =>
      .bind (retire_moves world (sub .flow trivial)) fun _ => .raiseFirst error
    exact .settle_cons (changeBody_moves _ fun _ => BodyStream.grows_close)
      (.settle_cons (.when (release_moves sub)) .settle_nil)

end Settling

section Signalling
variable (world : World)

theorem signalPendingLocal_moves (reason : String) :
    Evolves (Moves E) (signalPendingLocal world reason) := by
  refine .bind .get fun connection => ?_
  split
  · exact .pure ()
  · rename_i id _
    refine .bind (cancelRequest_moves id reason) fun _ => ?_
    exact .bind (changeBody_moves id fun _ => BodyStream.grows_cancel) fun _ => ask_moves world _

end Signalling

end GatewayConnection
end PccGateway
