import PccGateway.Proxy.RequestRoundTrip
import PccGateway.Server.RunFrame

namespace PccGateway
namespace GatewayConnection
open Thread Method ProxyExchange

/-- The bytes that were written to an upstream. -/
def upstreamWrites (added : List Entry) : Bytes :=
  (added.filterMap fun entry =>
    match entry with
    | .upstreamWrite _ data => some data
    | _ => none).flatten

/-- Since `start` these bytes were written. -/
def Wrote (start : List Entry) (written : Bytes) (connection : GatewayConnection) : Prop :=
  ∃ added, connection.trace = start ++ added ∧ upstreamWrites added = written

/-- At least so many bytes of the body were taken from its stream. -/
def Consumed (id count : Nat) (connection : GatewayConnection) : Prop :=
  ∃ object, connection.requests[id]? = some object ∧ count ≤ object.body.consumedBytes

section Frame
variable {start : List Entry} {written : Bytes} {id count : Nat} {E : Effect → Prop}
  {before after : GatewayConnection}

theorem upstreamWrites_append (added more : List Entry) :
    upstreamWrites (added ++ more) = upstreamWrites added ++ upstreamWrites more := by
  simp [upstreamWrites]

theorem Wrote.append (wrote : Wrote start written before) (more : List Entry)
    (grown : after.trace = before.trace ++ more) :
    Wrote start (written ++ upstreamWrites more) after := by
  obtain ⟨added, trace, rfl⟩ := wrote
  exact ⟨added ++ more, by rw [grown, trace, List.append_assoc], upstreamWrites_append added more⟩

theorem Wrote.of_moves (quiet : ¬ E (.entry .exchange)) (moves : Moves E before after)
    (wrote : Wrote start written before) :
    Wrote start written after := by
  obtain ⟨more, grown, kinds⟩ := moves.trace
  have none : upstreamWrites more = [] := by
    unfold upstreamWrites
    rw [List.filterMap_eq_nil_iff.mpr]
    · rfl
    · intro entry member
      cases entry <;> first | rfl | exact absurd (kinds _ member) quiet
  have same := wrote.append more grown
  rwa [none, List.append_nil] at same

theorem Consumed.of_moves (moves : Moves E before after) (consumed : Consumed id count before) :
    Consumed id count after := by
  obtain ⟨object, found, enough⟩ := consumed
  obtain ⟨object', found', grows⟩ := moves.requests id object found
  exact ⟨object', found', enough.trans grows.consumed⟩

end Frame

/-- The effects on everything but the request as the upstream gets it. -/
def outside (effect : Effect) : Prop := effect ≠ .exchange ∧ effect ≠ .entry .exchange

theorem serving_le_outside : serving ≤ outside := by
  intro effect allowed
  constructor <;>
  · rintro rfl
    exact allowed

theorem observing_le_outside : observing ≤ outside := by
  intro effect allowed
  constructor <;>
  · rintro rfl
    exact allowed

theorem carries_outside (world : World) :
    Carries world outside (Moves outside) := carries_moves world serving_le_outside

/-- A request on its way: what was written and what is still to be written are the head, the pieces
and the end. `unsent` was taken from the exchange's queue. -/
structure Sending (start : List Entry) (id : Nat) (head : Bytes) (length : Int) (chunked : Bool)
    (pieces : List Bytes)
    (ended : Option (List Header)) (unsent : Bytes) (connection : GatewayConnection) : Prop where
  sent : ∃ written exchange, Wrote start written connection ∧ connection.exchange = some exchange ∧
    Sent head length chunked pieces ended (written ++ unsent) exchange
  filled : ∀ piece ∈ pieces, piece ≠ []
  consumed : Consumed id pieces.flatten.length connection

/-- What was written is the beginning of a request, with no more of the body than was taken from its
stream. -/
def Began (start : List Entry) (id : Nat) (head : Bytes) (length : Int) (chunked : Bool)
    (connection : GatewayConnection) : Prop :=
  ∃ written rest pieces ended last,
    Wrote start written connection ∧ Ending length chunked pieces ended last ∧
    written ++ rest = head ++ bodyWire chunked pieces ++ last ∧ (∀ piece ∈ pieces, piece ≠ []) ∧
    Consumed id pieces.flatten.length connection

section Sending
variable {start : List Entry} {id : Nat} {head : Bytes} {length : Int} {chunked : Bool}
  {pieces : List Bytes}
  {ended : Option (List Header)} {unsent : Bytes} {connection after : GatewayConnection}

theorem Sending.began (sending : Sending start id head length chunked pieces ended unsent connection) :
    Began start id head length chunked connection := by
  obtain ⟨⟨written, exchange, wrote, found, sent⟩, filled, consumed⟩ := sending
  obtain ⟨last, ending, wire⟩ := sent.wire
  exact ⟨written, unsent ++ exchange.toUpstream.contents, pieces, ended, last, wrote, ending,
    by rw [← wire, List.append_assoc], filled, consumed⟩

theorem Began.of_moves {E : Effect → Prop} (quiet : ¬ E (.entry .exchange))
    (moves : Moves E connection after)
    (began : Began start id head length chunked connection) : Began start id head length chunked after := by
  obtain ⟨written, rest, pieces, ended, last, wrote, ending, wire, filled, consumed⟩ := began
  exact ⟨written, rest, pieces, ended, last, wrote.of_moves quiet moves, ending, wire, filled,
    consumed.of_moves moves⟩

theorem Sending.of_moves (moves : Moves outside connection after)
    (sending : Sending start id head length chunked pieces ended unsent connection) :
    Sending start id head length chunked pieces ended unsent after := by
  obtain ⟨⟨written, exchange, wrote, found, sent⟩, filled, consumed⟩ := sending
  have same := moves.exchange.resolve_left (by simp [outside])
  exact ⟨⟨written, exchange, wrote.of_moves (by simp [outside]) moves, same.trans found, sent⟩,
    filled, consumed.of_moves moves⟩

theorem sending_bind {α β : Type} {call : Call β} {next : β → Call α} {ok : α → GatewayConnection → Prop}
    (moves : Evolves (Moves outside) call)
    (sending : Sending start id head length chunked pieces ended unsent connection)
    (later : ∀ b after, Sending start id head length chunked pieces ended unsent after →
      Ends (next b) after ok (fun _ => Began start id head length chunked)) :
    Ends (call >>= next) connection ok (fun _ => Began start id head length chunked) := by
  rw [ends_bind]
  exact moves.ends.mono (fun b after moved => later b after (sending.of_moves moved))
    fun _ after moved => (sending.of_moves moved).began

variable (world : World) (fuel : Nat)

/-- The bytes of one `take_upstream` are written from front to back. -/
theorem sendData_sends (handle : Int) {data : Bytes}
    (sending : Sending start id head length chunked pieces ended data connection) :
    Ends (sendData world fuel handle id data) connection (fun failure after =>
      ∃ unsent, Sending start id head length chunked pieces ended unsent after ∧
        (failure = none → unsent = [])) (fun _ => Began start id head length chunked) := by
  have carries := carries_outside world
  refine @ends_loop _ _ _ _ _ _ _ _
    (fun remaining => Sending start id head length chunked pieces ended remaining)
    (fun remaining c sending => ?_) (fun _ c sending => sending.began) _ _ sending
  refine .ite (fun done => ⟨remaining, sending, fun _ => done⟩) fun _ => ?_
  refine sending_bind (proxyDeadlineFailure_moves id) sending fun failure c sending => ?_
  cases failure with
  | some failure => exact ⟨remaining, sending, nofun⟩
  | none =>
    refine sending_bind (ask_moves world _) sending fun outcome c sending => ?_
    cases outcome with
    | progress count =>
      refine .ite (fun _ => ⟨remaining, sending, nofun⟩) fun _ => ?_
      obtain ⟨⟨written, exchange, wrote, found, sent⟩, filled, consumed⟩ := sending
      refine ⟨⟨written ++ remaining.take count.toNat, exchange, ?_, found, ?_⟩, filled, consumed⟩
      · simpa [upstreamWrites] using wrote.append [.upstreamWrite handle (remaining.take count.toNat)] rfl
      · rw [List.append_assoc, List.take_append_drop]
        exact sent
    | wouldBlock =>
      refine sending_bind (proxyRemainingMs_moves id) sending fun budget c sending => ?_
      refine sending_bind (proxyWaitUpstream_carried carries observing_le_outside budget id) sending
        fun failure c sending => ?_
      cases failure with
      | some failure => exact ⟨remaining, sending, nofun⟩
      | none => exact sending
    | failed => exact ⟨remaining, sending, nofun⟩

/-- Nothing is queued for the upstream. -/
def Flushed (connection : GatewayConnection) : Prop :=
  ∃ exchange, connection.exchange = some exchange ∧ exchange.toUpstream.queuedBytes = 0

theorem proxyWriteQueued_sends (handle : Int)
    (sending : Sending start id head length chunked pieces ended [] connection) :
    Ends (proxyWriteQueued world fuel handle id) connection (fun failure after =>
      ∃ unsent, Sending start id head length chunked pieces ended unsent after ∧
        (failure = none → unsent = [] ∧ after.Flushed))
      (fun _ => Began start id head length chunked) := by
  refine @ends_loop _ _ _ _ _ _ _ _ (fun _ => Sending start id head length chunked pieces ended [])
    (fun _ c sending => ?_) (fun _ c sending => sending.began) _ _ sending
  obtain ⟨written, exchange, wrote, found, sent⟩ := sending.sent
  refine exchangeView_bind found
    (.ite (fun empty => ⟨[], sending, fun _ => ⟨rfl, exchange, found, empty⟩⟩) fun _ => ?_)
  rw [get_bind, ends_bind]
  refine onExchange_ends found (fun accounting next buffered taken run => ?_) fun _ _ _ => sending.began
  obtain ⟨data, resumed⟩ := taken
  have ledger : Sent head length chunked pieces ended (written ++ []) { exchange with
      accounting := accounting } := sent.frame rfl
  obtain ⟨valid, contents, flags⟩ := takeUpstream_eq_ok ledger.wellFormed run
  have took : Sending start id head length chunked pieces ended data
      { c with exchange := some next, buffered := buffered } := by
    refine ⟨⟨written, next, wrote, rfl, valid, flags.trans ledger.flags, ?_⟩, sending.filled,
      sending.consumed⟩
    obtain ⟨last, ending, wire⟩ := ledger.wire
    refine ⟨last, ending, ?_⟩
    rw [← wire, contents]
    simp
  simp only
  rw [ends_bind]
  refine (sendData_sends world fuel handle took).mono (fun failure c written => ?_) fun _ _ began => began
  obtain ⟨unsent, sending, all⟩ := written
  cases failure with
  | some failure => exact ⟨unsent, sending, nofun⟩
  | none =>
    rw [all rfl] at sending
    exact sending

theorem readChunk_consumes (body : BodyStream) {next : BodyStream} {data : Bytes}
    (run : BodyStream.readChunk body = (next, .ok (some data))) :
    next.consumedBytes = body.consumedBytes + data.length := by
  unfold BodyStream.readChunk at run
  split at run
  · cases run
  · split at run
    · cases run
      rfl
    · split at run
      · cases run
      · split at run
        · cases run
          rfl
        · cases run

/-- A chunk is counted as consumed before it is forwarded. -/
theorem readBodyChunk_sends
    (sending : Sending start id head length chunked pieces ended unsent connection) :
    Ends (readBodyChunk id) connection
      (fun chunk after => Sending start id head length chunked pieces ended unsent after ∧
      ∀ data, chunk = some data → Consumed id (pieces.flatten.length + data.length) after)
      (fun _ => Began start id head length chunked) := by
  unfold readBodyChunk
  refine sending_bind (requestObject_moves id) sending fun object c sending => ?_
  refine sending_bind (note_moves (by simp [outside, Entry.kind])) sending fun _ c sending => ?_
  have moves : Evolves (Moves outside) (onBody id BodyStream.readChunk) :=
    onBody_moves id BodyStream.grows_readChunk
  obtain ⟨object, found, enough⟩ := sending.consumed
  have moved := moves c
  revert moved
  unfold Ends onBody
  rw [bind_run, requestObject_found found]
  simp only [Method.on]
  rcases run : BodyStream.readChunk object.body with ⟨body, error | chunk⟩
  · exact fun moved => (sending.of_moves moved).began
  · intro moved
    refine ⟨sending.of_moves moved, ?_⟩
    rintro data rfl
    have inside := (List.getElem?_eq_some_iff.mp found).1
    refine ⟨{ object with body := body }, by simp [inside], ?_⟩
    rw [readChunk_consumes object.body run]
    exact Nat.add_le_add_right enough _

/-- The chunks that are there already, each written before the next one is read. -/
theorem forwardChunks_sends (handle : Int)
    (sending : Sending start id head length chunked pieces none [] connection) :
    Ends (forwardChunks world fuel handle id) connection (fun failure after => ∃ pieces unsent,
      Sending start id head length chunked pieces none unsent after ∧ (failure = none → unsent = []))
      (fun _ => Began start id head length chunked) := by
  unfold forwardChunks
  rw [ends_bind]
  refine (readBodyChunk_sends sending).mono (fun chunk c read => ?_) fun _ _ began => began
  refine @ends_loop _ _ _ _ _ _ _ _
    (fun chunk c => ∃ pieces, Sending start id head length chunked pieces none [] c ∧
    ∀ data, chunk = some data → Consumed id (pieces.flatten.length + data.length) c)
    (fun chunk c held => ?_) (fun _ c held => held.elim fun _ sending => sending.1.began) _ _ ⟨pieces, read⟩
  obtain ⟨pieces, sending, counted⟩ := held
  split
  · exact ⟨pieces, [], sending, fun _ => rfl⟩
  · exact ⟨pieces, [], sending, fun _ => rfl⟩
  · rename_i data filled
    have counted := counted data rfl
    obtain ⟨written, exchange, wrote, found, sent⟩ := sending.sent
    rw [ends_bind]
    refine onExchange_ends found (fun accounting next buffered transition run => ?_) fun _ _ _ =>
      sending.began
    have ledger : Sent head length chunked pieces none (written ++ []) { exchange with
        accounting := accounting } :=
      sent.frame rfl
    have fed : Sending start id head length chunked (pieces ++ [data]) none []
        { c with exchange := some next, buffered := buffered } := by
      refine ⟨⟨written, next, wrote, rfl, (ledger.feedRequestBody run).2⟩, ?_, ?_⟩
      · intro piece member
        rcases List.mem_append.mp member with old | new
        · exact sending.filled piece old
        · rw [List.mem_singleton.mp new]
          exact filled
      · rw [List.flatten_append, List.length_append, List.flatten_singleton]
        exact counted
    rw [ends_bind]
    refine (proxyWriteQueued_sends world fuel handle fed).mono (fun failure c sent => ?_) fun _ _
      began => began
    obtain ⟨unsent, sending, all⟩ := sent
    cases failure with
    | some failure => exact ⟨_, unsent, sending, nofun⟩
    | none =>
      rw [(all rfl).1] at sending
      show Ends (readBodyChunk id >>= _) c _ _
      rw [ends_bind]
      exact (readBodyChunk_sends sending).mono (fun chunk c read => ⟨_, read⟩) fun _ _ began => began

theorem forwardBody_sends (handle : Int)
    (sending : Sending start id head length chunked pieces none [] connection) :
    Ends (forwardBody world fuel handle id) connection (fun failure after => ∃ pieces unsent,
      Sending start id head length chunked pieces none unsent after ∧ (failure = none → unsent = []))
      (fun _ => Began start id head length chunked) := by
  have carries := carries_outside world
  refine @ends_loop _ _ _ _ _ _ _ _
    (fun _ c => ∃ pieces, Sending start id head length chunked pieces none [] c)
    (fun _ c held => ?_) (fun _ c held => held.elim fun _ sending => sending.began) _ _ ⟨pieces, sending⟩
  obtain ⟨pieces, sending⟩ := held
  refine sending_bind (requestObject_moves id) sending fun object c sending => ?_
  refine .ite (fun _ => ⟨pieces, [], sending, fun _ => rfl⟩) fun _ => ?_
  rw [get_bind]
  refine sending_bind (note_moves (by simp [outside, Entry.kind])) sending fun _ c sending => ?_
  refine sending_bind (carries.consume id) sending fun _ c sending => ?_
  rw [ends_bind]
  refine (forwardChunks_sends world fuel handle sending).mono (fun failure c forwarded => ?_) fun _ _
    began => began
  obtain ⟨pieces, unsent, sending, all⟩ := forwarded
  cases failure with
  | some failure => exact ⟨pieces, unsent, sending, nofun⟩
  | none =>
    rw [all rfl] at sending
    refine sending_bind (requestObject_moves id) sending fun object c sending => ?_
    refine .ite (fun _ => ⟨pieces, [], sending, fun _ => rfl⟩) fun _ => ?_
    refine sending_bind (proxyDeadlineFailure_moves id) sending fun failure c sending => ?_
    cases failure with
    | some failure => exact ⟨pieces, [], sending, nofun⟩
    | none =>
      refine sending_bind (proxyRemainingMs_moves id) sending fun budget c sending => ?_
      refine sending_bind (proxyReadDownstreamBody_carried carries observing_le_outside id budget)
        sending fun failure c sending => ?_
      cases failure with
      | some failure => exact ⟨pieces, [], sending, nofun⟩
      | none => exact ⟨pieces, sending⟩

end Sending

/-- The head that an attempt sends for a request. -/
def attemptHead (plan : ProxyPlan) (endpoint : UpstreamEndpoint) (request : Request) :
    Except Exn Bytes := do
  let target ← proxyTarget request plan.spec.stripPrefix
  encodeProxyRequestHead (upper request.method) target request.headers (proxyAuthority endpoint)
    request.clientIp request.scheme
    ((request.header "host").getD []) request.contentLength request.chunkedBody plan.spec.trustForwarded
    request.expectContinueHandled

/-- The request of an attempt. Its trailers may still come. -/
def Proxies (id : Nat) (request : Request) (connection : GatewayConnection) : Prop :=
  ∃ object, connection.requests[id]? = some object ∧ { object.request with trailers := [] } =
    { request with trailers := [] }

theorem Proxies.of_moves {E : Effect → Prop} {id : Nat} {request : Request}
    {connection after : GatewayConnection}
    (moves : Moves E connection after) (proxies : Proxies id request connection) :
    Proxies id request after := by
  obtain ⟨object, found, same⟩ := proxies
  obtain ⟨object', found', grows⟩ := moves.requests id object found
  exact ⟨object', found', grows.request.trans same⟩

theorem attemptHead_eq {request request' : Request}
    (same : { request' with trailers := [] } = { request with trailers := [] })
    (plan : ProxyPlan) (endpoint : UpstreamEndpoint) : attemptHead plan endpoint request' =
      attemptHead plan endpoint request :=
  show attemptHead plan endpoint { request' with trailers := [] } = attemptHead plan endpoint
      { request with trailers := [] } by
    rw [same]

section Requests
variable {start : List Entry} {id : Nat} {connection : GatewayConnection} (world : World) (fuel : Nat)

/-- Nothing was written yet, or the beginning of the request. -/
def Forwarded (start : List Entry) (id : Nat) (plan : ProxyPlan) (endpoint : UpstreamEndpoint)
    (request : Request) (connection : GatewayConnection) : Prop :=
  Wrote start [] connection ∨ ∃ head, attemptHead plan endpoint request = .ok head ∧
    Began start id head request.contentLength request.chunkedBody connection

/-- The whole request was written. -/
def Completed (start : List Entry) (plan : ProxyPlan) (endpoint : UpstreamEndpoint) (request : Request)
    (connection : GatewayConnection) : Prop :=
  ∃ head pieces trailers last, attemptHead plan endpoint request = .ok head ∧
    Ending request.contentLength request.chunkedBody pieces (some trailers) last ∧
    Wrote start (head ++ bodyWire request.chunkedBody pieces ++ last) connection

/-- The end of the request is queued and written. -/
theorem finish_forwards {handle : Int} {plan : ProxyPlan} {endpoint : UpstreamEndpoint}
    {request : Request} {head : Bytes}
    {pieces : List Bytes} (headed : attemptHead plan endpoint request = .ok head)
    (sending : Sending start id head request.contentLength request.chunkedBody pieces none [] connection) :
    Ends (do
      let object ← requestObject id
      let _ ← onExchange world (ProxyExchange.finishRequest object.request.trailers)
      proxyWriteQueued world fuel handle id : Call (Option Failure)) connection (fun failure after =>
        Forwarded start id plan endpoint request after ∧
          (failure = none → Completed start plan endpoint request after))
      (fun _ => Began start id head request.contentLength request.chunkedBody) := by
  refine sending_bind (requestObject_moves id) sending fun object c sending => ?_
  obtain ⟨written, exchange, wrote, found, sent⟩ := sending.sent
  rw [ends_bind]
  refine onExchange_ends found (fun accounting next buffered transition run => ?_) fun _ _ _ =>
    sending.began
  have ledger : Sent head request.contentLength request.chunkedBody pieces none (written ++ [])
    { exchange with accounting := accounting } := sent.frame rfl
  have finished : Sending start id head request.contentLength request.chunkedBody pieces
      (some object.request.trailers) []
      { c with exchange := some next, buffered := buffered } :=
    ⟨⟨written, next, wrote, rfl, ledger.finishRequest run⟩, sending.filled, sending.consumed⟩
  refine (proxyWriteQueued_sends world fuel handle finished).mono (fun failure c sent => ?_) fun _ _
    began => began
  obtain ⟨unsent, sending, all⟩ := sent
  refine ⟨.inr ⟨head, headed, sending.began⟩, fun none => ?_⟩
  obtain ⟨rfl, exchange', found', empty⟩ := all none
  obtain ⟨written, exchange, wrote, found, sent⟩ := sending.sent
  rw [found] at found'
  cases found'
  have isOver : exchange'.toUpstream.contents = [] :=
    List.eq_nil_of_length_eq_zero (sent.wellFormed.queued ▸ empty)
  obtain ⟨last, ending, wire⟩ := sent.wire
  rw [isOver, List.append_nil, List.append_nil] at wire
  exact ⟨head, pieces, _, last, headed, ending, wire ▸ wrote⟩

theorem sendRequest_forwards (plan : ProxyPlan) (pooled : PooledUpstreamConnection) {request : Request}
    (proxies : Proxies id request connection) (wrote : Wrote start [] connection) :
    Ends (sendRequest world fuel plan pooled id) connection (fun failure after =>
      Forwarded start id plan pooled.endpoint request after ∧
        (failure = none → Completed start plan pooled.endpoint request after))
      (fun _ => Forwarded start id plan pooled.endpoint request) := by
  obtain ⟨object, found, trailed⟩ := proxies
  unfold sendRequest
  rw [ends_bind]
  have asked : Ends (requestObject id) connection
      (fun object' after => object' = object ∧ after = connection) (fun _ _ => False) := by
    unfold Ends
    rw [requestObject_found found]
    exact ⟨rfl, rfl⟩
  refine asked.mono (fun object' after same => ?_) fun _ _ => False.elim
  obtain ⟨rfl, rfl⟩ := same
  rw [modify_bind]
  refine lift_bind (fun target targeted => ?_) fun _ => .inl wrote
  rw [get_bind, modify_bind]
  refine lift_bind (fun exchange started => ?_) fun _ => .inl wrote
  rw [modify_bind]
  obtain ⟨head, sent, encodes⟩ := init_sent started
  have headed : attemptHead plan pooled.endpoint request = .ok head :=
    (attemptHead_eq trailed plan pooled.endpoint).symm.trans (bind_eq_ok.mpr ⟨target, targeted, encodes⟩)
  have length := congrArg Request.contentLength trailed
  have coded := congrArg Request.chunkedBody trailed
  simp only at length coded
  simp only [length, coded] at sent
  have forwarded {c : GatewayConnection}
    (began : Began start id head request.contentLength request.chunkedBody c) :
      Forwarded start id plan pooled.endpoint request c := .inr ⟨head, headed, began⟩
  rw [ends_bind]
  refine Ends.mono (@proxyWriteQueued_sends start id head _ _ [] none _ world fuel pooled.handle
    ⟨⟨[], exchange, wrote, rfl, sent⟩, nofun, object', found, Nat.zero_le _⟩)
      (fun failure c sent => ?_) fun _ _ began => forwarded began
  obtain ⟨unsent, sending, all⟩ := sent
  cases failure with
  | some failure => exact ⟨forwarded sending.began, nofun⟩
  | none =>
    rw [(all rfl).1] at sending
    show Ends (forwardBody world fuel pooled.handle id >>= _) c _ _
    rw [ends_bind]
    refine (forwardBody_sends world fuel pooled.handle sending).mono (fun failure c sent => ?_)
      fun _ _ began => forwarded began
    obtain ⟨pieces, unsent, sending, all⟩ := sent
    cases failure with
    | some failure => exact ⟨forwarded sending.began, nofun⟩
    | none =>
      rw [all rfl] at sending
      show Ends (forwardChunks world fuel pooled.handle id >>= _) c _ _
      rw [ends_bind]
      refine (forwardChunks_sends world fuel pooled.handle sending).mono (fun failure c sent => ?_)
        fun _ _ began => forwarded began
      obtain ⟨pieces, unsent, sending, all⟩ := sent
      cases failure with
      | some failure => exact ⟨forwarded sending.began, nofun⟩
      | none =>
        rw [all rfl] at sending
        exact (finish_forwards world fuel headed sending).mono (fun _ _ sent => sent) fun _ _ began =>
          forwarded began

end Requests

end GatewayConnection
end PccGateway
