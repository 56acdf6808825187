import PccGateway.Proxy.Commitment
import PccGateway.Server.RunFrame

namespace PccGateway
namespace GatewayConnection
open Thread Method

/-- What an attempt read from its upstream, a piece for each read. -/
def upstreamReads (added : List Entry) : List Bytes :=
  added.filterMap fun entry =>
    match entry with
    | .upstreamRead _ data => some data
    | _ => none

/-- How the socket layer told that the upstream is gone: `true` for an end of file, `false` for empty
progress and for an error. -/
def peerCloses (added : List Entry) : List Bool :=
  added.filterMap fun entry =>
    match entry with
    | .upstreamClosed byEof => some byEof
    | _ => none

/-- The pieces complete a final response head. -/
def finalHead (method : Text) (pieces : List Bytes) : Bool :=
  match (Http1UpstreamCodec.feedAll { requestMethod := upper (upper method), limits := .standard }
    pieces).2 with
  | .ok events => events.any UpstreamEvent.isFinal
  | .error _ => false

/-- Since `start` these pieces were read and these closes seen. -/
def Heard (start : List Entry) (pieces : List Bytes) (closes : List Bool)
    (connection : GatewayConnection) : Prop :=
  ∃ added, connection.trace = start ++ added ∧ upstreamReads added = pieces ∧ peerCloses added = closes

section Heard
variable {start : List Entry} {pieces : List Bytes} {closes : List Bool} {before after : GatewayConnection}

theorem Heard.append (heard : Heard start pieces closes before) (more : List Entry)
    (grown : after.trace = before.trace ++ more) :
    Heard start (pieces ++ upstreamReads more) (closes ++ peerCloses more) after := by
  obtain ⟨added, trace, rfl, rfl⟩ := heard
  refine ⟨added ++ more, by rw [grown, trace, List.append_assoc], ?_, ?_⟩
  · exact List.filterMap_append
  · exact List.filterMap_append

theorem Heard.of_moves {E : Effect → Prop} (quiet : ¬ E (.entry .response)) (moves : Moves E before after)
    (heard : Heard start pieces closes before) : Heard start pieces closes after := by
  obtain ⟨more, grown, kinds⟩ := moves.trace
  have none {entry : Entry} (member : entry ∈ more) : entry.kind ≠ .response := fun kind =>
    quiet (kind ▸ kinds entry member)
  have unread : upstreamReads more = [] := List.filterMap_eq_nil_iff.mpr fun entry member => by
    cases entry <;> first | rfl | exact absurd rfl (none member)
  have unclosed : peerCloses more = [] := List.filterMap_eq_nil_iff.mpr fun entry member => by
    cases entry <;> first | rfl | exact absurd rfl (none member)
  have same := heard.append more grown
  rwa [unread, unclosed, List.append_nil, List.append_nil] at same

end Heard

/-- The effects on everything but the response. -/
def requesting (effect : Effect) : Prop := effect ≠ .response ∧ effect ≠ .entry .response

theorem serving_le_requesting : serving ≤ requesting := by
  intro effect allowed
  constructor <;>
  · rintro rfl
    exact allowed

theorem relaying_le_requesting : relaying ≤ requesting := by
  intro effect allowed
  constructor <;>
  · rintro rfl
    exact allowed

/-- An exchange that was fed these pieces, and decided what the events ask for. -/
structure Fed (method : Text) (pieces : List Bytes) (events : List UpstreamEvent)
    (exchange : ProxyExchange) : Prop where
  decoded : Http1UpstreamCodec.feedAll { requestMethod := upper (upper method), limits := {} }
    pieces = (exchange.codec, .ok events)
  committed : exchange.responseCommitted = events.any UpstreamEvent.isFinal
  finished : exchange.responseFinished = events.any UpstreamEvent.isEnd
  reusable : exchange.upstreamKeepAlive = events.foldl UpstreamEvent.reusable false

theorem Fed.of_reception {method : Text} {pieces : List Bytes} {events : List UpstreamEvent}
    {exchange exchange' : ProxyExchange}
    (fed : Fed method pieces events exchange) (same : exchange'.reception = exchange.reception) :
    Fed method pieces events exchange' := by
  simp only [ProxyExchange.reception, Prod.mk.injEq] at same
  obtain ⟨codec, committed, -, finished, reusable⟩ := same
  exact ⟨codec ▸ fed.decoded, committed ▸ fed.committed, finished ▸ fed.finished, reusable ▸ fed.reusable⟩

theorem Fed.progress {method : Text} {pieces : List Bytes} {events : List UpstreamEvent}
    {exchange : ProxyExchange}
    (fed : Fed method pieces events exchange) : Progress exchange.codec events := by
  have fresh : Progress { requestMethod := upper (upper method), limits := {} } [] :=
    @Progress.heads _ [] rfl rfl rfl (by simp)
  exact fresh.feedAll fed.decoded

/-- The response loop: the exchange has been fed what was read, and nobody has closed. -/
def Receiving (start : List Entry) (method : Text) (connection : GatewayConnection) : Prop :=
  ∃ pieces exchange events, Heard start pieces [] connection ∧ connection.exchange = some exchange ∧
    Fed method pieces events exchange

/-- The response has not ended. -/
def Unfinished (connection : GatewayConnection) : Prop :=
  ∀ exchange, connection.exchange = some exchange → exchange.responseFinished = false

/-- The loop is over without a failure. An upstream that may be used again told the end of its
response by itself. -/
def Answered (start : List Entry) (method : Text) (connection : GatewayConnection) : Prop :=
  ∃ pieces closes exchange, Heard start pieces closes connection ∧ (∀ byEof ∈ closes, byEof = true) ∧
    connection.exchange = some exchange ∧ (exchange.upstreamKeepAlive = true →
      exchange.responseFinished = true → ∃ events, Fed method pieces events exchange)

/-- The failure that is told for a close before the final head. -/
def Told (start : List Entry) (method : Text) (failure : Option Failure)
    (connection : GatewayConnection) : Prop :=
  ∃ pieces closes, Heard start pieces closes connection ∧
    ∀ byEof ∈ closes, finalHead method pieces = false → (failure = some .resetBeforeHead ↔ byEof = false)

/-- An exception can only have come from the codec's `eof`. -/
def OnlyEof (start : List Entry) (connection : GatewayConnection) : Prop :=
  ∃ pieces closes, Heard start pieces closes connection ∧ ∀ byEof ∈ closes, byEof = true

section Receiving
variable {start : List Entry} {method : Text} {connection : GatewayConnection}

theorem Heard.told {pieces : List Bytes} (heard : Heard start pieces [] connection)
    (failure : Option Failure) :
    Told start method failure connection := ⟨pieces, [], heard, nofun⟩

theorem Heard.onlyEof {pieces : List Bytes} (heard : Heard start pieces [] connection) :
    OnlyEof start connection :=
  ⟨pieces, [], heard, nofun⟩

theorem Receiving.onlyEof (receiving : Receiving start method connection) : OnlyEof start connection :=
  receiving.elim fun _ ⟨_, _, heard, _⟩ => heard.onlyEof

theorem Receiving.told (receiving : Receiving start method connection) (failure : Option Failure) :
    Told start method failure connection :=
  receiving.elim fun _ ⟨_, _, heard, _⟩ => heard.told failure

/-- Without an effect on the response, the exchange keeps its part of it. -/
theorem reception_of_moves {after : GatewayConnection} {exchange : ProxyExchange}
    (moves : Moves requesting connection after) (found : connection.exchange = some exchange) :
    ∃ exchange', after.exchange = some exchange' ∧ exchange'.reception = exchange.reception := by
  have same := moves.response.resolve_left (by simp [requesting])
  rw [found] at same
  exact Option.map_eq_some_iff.mp same

theorem Receiving.of_moves {after : GatewayConnection} (moves : Moves requesting connection after)
    (receiving : Receiving start method connection) : Receiving start method after := by
  obtain ⟨pieces, exchange, events, heard, found, fed⟩ := receiving
  obtain ⟨exchange', found', same⟩ := reception_of_moves moves found
  exact ⟨pieces, exchange', events, heard.of_moves (by simp [requesting]) moves, found',
    fed.of_reception same⟩

theorem Unfinished.of_moves {after : GatewayConnection} (moves : Moves requesting connection after)
    (receiving : Receiving start method connection) (unfinished : connection.Unfinished) :
    after.Unfinished := by
  obtain ⟨pieces, exchange, events, heard, found, fed⟩ := receiving
  obtain ⟨exchange', found', same⟩ := reception_of_moves moves found
  intro other is
  rw [found'] at is
  cases is
  simp only [ProxyExchange.reception, Prod.mk.injEq] at same
  rw [same.2.2.2.1]
  exact unfinished exchange found

theorem Answered.of_moves {after : GatewayConnection} (moves : Moves requesting connection after)
    (answered : Answered start method connection) : Answered start method after := by
  obtain ⟨pieces, closes, exchange, heard, eof, found, reused⟩ := answered
  obtain ⟨exchange', found', same⟩ := reception_of_moves moves found
  refine ⟨pieces, closes, exchange', heard.of_moves (by simp [requesting]) moves, eof, found',
    fun stays ended => ?_⟩
  have fields := same
  simp only [ProxyExchange.reception, Prod.mk.injEq] at fields
  obtain ⟨-, -, -, finished, reusable⟩ := fields
  obtain ⟨events, fed⟩ := reused (reusable ▸ stays) (finished ▸ ended)
  exact ⟨events, fed.of_reception same⟩

theorem Answered.onlyEof (answered : Answered start method connection) : OnlyEof start connection := by
  obtain ⟨pieces, closes, exchange, heard, eof, -⟩ := answered
  exact ⟨pieces, closes, heard, eof⟩

theorem receiving_bind {α β : Type} {call : Call β} {next : β → Call α} {ok : α → GatewayConnection → Prop}
    (moves : Evolves (Moves requesting) call) (receiving : Receiving start method connection)
    (later : ∀ b after, Moves requesting connection after → Receiving start method after →
      Ends (next b) after ok (fun _ => OnlyEof start)) :
    Ends (call >>= next) connection ok (fun _ => OnlyEof start) := by
  rw [ends_bind]
  exact moves.ends.mono (fun b after moved => later b after moved (receiving.of_moves moved))
    fun _ after moved => (receiving.of_moves moved).onlyEof

variable (world : World) (fuel : Nat)

theorem carries_requesting :
    Carries world requesting (Moves requesting) := carries_moves world serving_le_requesting

/-- The bytes of one read. -/
theorem feedUpstream_receiving {pieces : List Bytes} {exchange : ProxyExchange}
    {events : List UpstreamEvent} {data : Bytes}
    (heard : Heard start (pieces ++ [data]) [] connection) (found : connection.exchange = some exchange)
    (fed : Fed method pieces events exchange) :
    Ends (onExchange world (ProxyExchange.feedUpstream data)) connection (fun _ => Receiving start method)
      (fun _ => OnlyEof start) := by
  refine onExchange_ends found (fun accounting next buffered transition run => ?_) fun next buffered
    error => heard.onlyEof
  obtain ⟨new, decoded, commits, finishes, reuses⟩ := ProxyExchange.feedUpstream_commitment run
  refine ⟨pieces ++ [data], next, events ++ new, heard, rfl,
    Http1UpstreamCodec.feedAll_concat fed.decoded decoded, ?_, ?_, ?_⟩
  · rw [commits, fed.committed, List.any_append]
  · rw [finishes, fed.finished, List.any_append]
  · rw [reuses, fed.reusable, List.foldl_append]

/-- An end of file that the codec takes comes behind a final head, and ends a response that did not
tell its end. -/
theorem upstreamEof_answered {pieces : List Bytes} {exchange : ProxyExchange} {events : List UpstreamEvent}
    (heard : Heard start pieces [true] connection) (found : connection.exchange = some exchange)
    (fed : Fed method pieces events exchange) (unfinished : exchange.responseFinished = false) :
    Ends (onExchange world ProxyExchange.upstreamEof) connection
      (fun _ after => Answered start method after ∧ Heard start pieces [true] after ∧
        finalHead method pieces = true)
      (fun _ => OnlyEof start) := by
  refine onExchange_ends found (fun accounting next buffered transition run => ?_) fun next buffered
    error => ?_
  · obtain ⟨_, new, onCodec, forwarded⟩ := bind_eq_ok_iff.mp run
    obtain ⟨codec, decoded, rfl⟩ := on_eq_ok_iff.mp onCodec
    have progress := fed.progress
    have running : events.any UpstreamEvent.isEnd = false := fed.finished.symm.trans unfinished
    have eof : exchange.codec.state = .untilEof ∧ new = [.responseEnd []] := by
      unfold Http1UpstreamCodec.eof at decoded
      split at decoded
      · rename_i state
        cases decoded
        exact ⟨state, rfl⟩
      · split at decoded
        · rename_i complete
          cases progress with
          | heads _ other => exact absurd (other.symm.trans complete) (by simp)
          | body other => exact absurd (other.symm.trans complete) (by simp)
          | done => simp [UpstreamEvent.isEnd] at running
        · cases decoded
    obtain ⟨state, rfl⟩ := eof
    have keeps := ProxyExchange.forwardEvents_commitment forwarded
    simp only [ProxyExchange.commitment, Prod.mk.injEq] at keeps
    refine ⟨⟨pieces, [true], next, heard, by simp, rfl, fun stays => ?_⟩, heard, ?_⟩
    · rw [keeps.2.2.2] at stays
      obtain ⟨_, _, _, _, other⟩ := progress.reusable_head (fed.reusable.symm.trans stays)
      exact absurd state other
    · unfold finalHead
      rw [fed.decoded]
      exact Http1UpstreamCodec.final_of_eof progress decoded
  · exact ⟨pieces, [true], heard, by simp⟩

/-- What a pass of the response loop leaves. -/
def Passes (start : List Entry) (method : Text) :
    Pass Unit (Option AttemptResult) → GatewayConnection → Prop
  | .again _, connection => Receiving start method connection
  | .done result, connection => Told start method (result.elim none (·.failure)) connection ∧
      (result = none → Answered start method connection)

theorem attemptFailed_told (failure : Failure) {pieces : List Bytes} {closes : List Bool}
    (heard : Heard start pieces closes connection) (found : connection.exchange.isSome)
    (same : ∀ byEof ∈ closes, failure = .resetBeforeHead ∧ byEof = false) :
    Ends (do
      let result ← attemptFailed failure
      return .done (some result) : Call (Pass Unit (Option AttemptResult))) connection (Passes start method)
        (fun _ => OnlyEof start) := by
  obtain ⟨exchange, found⟩ := Option.isSome_iff_exists.mp found
  unfold attemptFailed
  rw [ends_bind]
  refine exchangeView_bind found ⟨⟨pieces, closes, heard, fun byEof member _ => ?_⟩, nofun⟩
  obtain ⟨rfl, rfl⟩ := same byEof member
  simp

theorem receivePass_told (handle : Int) (id : Nat) (receiving : Receiving start method connection) :
    Ends (receivePass world fuel handle id) connection (Passes start method) (fun _ => OnlyEof start) := by
  have carries := carries_requesting world
  have delivers := delivering_le_relaying.trans relaying_le_requesting
  have failing {c : GatewayConnection} (receiving : Receiving start method c) (failure : Failure) : Ends (do
      let result ← attemptFailed failure
      return .done (some result)) c (Passes start method) (fun _ => OnlyEof start) :=
    receiving.elim fun pieces ⟨exchange, events, heard, found, _⟩ =>
      attemptFailed_told failure heard (Option.isSome_iff_exists.mpr ⟨exchange, found⟩) nofun
  obtain ⟨pieces, exchange, events, heard, found, fed⟩ := receiving
  have receiving : Receiving start method connection := ⟨pieces, exchange, events, heard, found, fed⟩
  refine exchangeView_bind found (.ite (fun _ => ⟨heard.told _, fun _ => ?_⟩) fun running => ?_)
  · exact ⟨pieces, [], exchange, heard, nofun, found, fun _ _ => ⟨events, fed⟩⟩
  have unfinished : connection.Unfinished := by
    intro other is
    rw [found] at is
    cases is
    simpa using running
  refine receiving_bind (proxyDeadlineFailure_moves id) receiving fun failure c moved receiving' => ?_
  have unfinished := unfinished.of_moves moved receiving
  split
  · exact failing receiving' _
  · refine receiving_bind (ask_moves world _) receiving' fun outcome c moved receiving => ?_
    have unfinished := unfinished.of_moves moved receiving'
    obtain ⟨pieces, exchange, events, heard, found, fed⟩ := receiving
    have receiving : Receiving start method c := ⟨pieces, exchange, events, heard, found, fed⟩
    have gone : Ends (do
        note (.upstreamClosed false)
        let result ← attemptFailed .resetBeforeHead
        return .done (some result)) c (Passes start method) (fun _ => OnlyEof start) := by
      rw [note, modify_bind]
      have closed : Heard start pieces [false] { c with trace := c.trace ++ [.upstreamClosed false] } := by
        simpa [upstreamReads, peerCloses] using heard.append [.upstreamClosed false] rfl
      exact attemptFailed_told .resetBeforeHead closed
        (Option.isSome_iff_exists.mpr ⟨exchange, found⟩) (by simp)
    cases outcome with
    | progress data =>
      refine .ite (fun _ => gone) fun _ => ?_
      rw [note, modify_bind]
      have read : Heard start (pieces ++ [data]) []
          { c with trace := c.trace ++ [.upstreamRead handle data] } := by
        simpa [upstreamReads, peerCloses] using heard.append [.upstreamRead handle data] rfl
      rw [ends_bind]
      refine (feedUpstream_receiving world read found fed).mono (fun _ c receiving => ?_) fun _ _
        only => only
      refine receiving_bind (responseProgress_carried carries delivers _) receiving fun _ c _
        receiving => ?_
      refine receiving_bind (proxyFlushDownstream_carried carries delivers fuel) receiving fun failure
        c _ receiving => ?_
      cases failure with
      | none => exact receiving
      | some failure =>
        exact receiving_bind exchangeView_moves receiving fun _ _ _ receiving => ⟨receiving.told _, nofun⟩
    | eof =>
      show Ends (note (.upstreamClosed true) >>= _) c _ _
      rw [note, modify_bind]
      have closed : Heard start pieces [true] { c with trace := c.trace ++ [.upstreamClosed true] } := by
        simpa [upstreamReads, peerCloses] using heard.append [.upstreamClosed true] rfl
      rw [ends_bind]
      refine (upstreamEof_answered world closed found fed (unfinished exchange found)).mono
        (fun _ c ended => ?_)
        fun _ _ only => only
      obtain ⟨answered, heard, final⟩ := ended
      have quiet : ¬ requesting (.entry .response) := by simp [requesting]
      have told {after : GatewayConnection} (moved : Moves requesting c after) (failure : Option Failure) :
          Told start method failure after := by
        refine ⟨pieces, [true], heard.of_moves quiet moved, fun byEof member unfinished => ?_⟩
        rw [final] at unfinished
        cases unfinished
      unfold flushedOr
      rw [ends_bind]
      refine (proxyFlushDownstream_carried carries delivers fuel).ends.mono (fun failure after moved => ?_)
        fun _ _ moved => (answered.of_moves moved).onlyEof
      cases failure with
      | none => exact ⟨told moved _, fun _ => answered.of_moves moved⟩
      | some failure =>
        rw [ends_bind]
        refine exchangeView_moves.ends.mono (fun _ _ moved' => ⟨told (moved.trans moved') _, nofun⟩)
          fun _ _ moved' => ?_
        exact (answered.of_moves (moved.trans moved')).onlyEof
    | wouldBlock =>
      refine receiving_bind (proxyRemainingMs_moves id) receiving fun budget c _ receiving => ?_
      have observes := observing_le_delivering.trans delivers
      refine receiving_bind (proxyWaitUpstream_carried carries observes budget id) receiving
        fun failure c _ receiving => ?_
      cases failure with
      | some failure => exact failing receiving _
      | none => exact receiving
    | failed => exact gone

theorem receiveLoop_told (handle : Int) (id : Nat) (receiving : Receiving start method connection) :
    Ends (loop (fun _ => receivePass world fuel handle id) fuel ()) connection
      (fun result after => Told start method (result.elim none (·.failure)) after ∧
        (result = none → Answered start method after))
      (fun _ => OnlyEof start) := by
  refine @ends_loop _ _ _ _ _ _ _ _ (fun _ => Receiving start method) (fun _ c receiving => ?_)
    (fun _ c receiving => receiving.onlyEof) _ _ receiving
  refine (receivePass_told world fuel handle id receiving).mono (fun pass c passes => ?_) fun _ _
    only => only
  cases pass <;> exact passes

theorem Told.of_moves {E : Effect → Prop} (quiet : ¬ E (.entry .response)) {failure : Option Failure}
    {after : GatewayConnection}
    (moves : Moves E connection after) (told : Told start method failure connection) :
    Told start method failure after := by
  obtain ⟨pieces, closes, heard, same⟩ := told
  exact ⟨pieces, closes, heard.of_moves quiet moves, same⟩

/-- The request that is proxied. -/
def Asks (id : Nat) (method : Text) (connection : GatewayConnection) : Prop :=
  ∃ object, connection.requests[id]? = some object ∧ object.request.method = method

theorem Asks.of_moves {E : Effect → Prop} {id : Nat} {after : GatewayConnection}
    (moves : Moves E connection after) (asks : Asks id method connection) : Asks id method after := by
  obtain ⟨object, found, rfl⟩ := asks
  obtain ⟨object', found', grows⟩ := moves.requests id object found
  have same := congrArg Request.method grows.request
  exact ⟨object', found', same⟩

/-- When the request is out, the exchange has received nothing. -/
theorem sendRequest_receiving (plan : ProxyPlan) (pooled : PooledUpstreamConnection) {id : Nat}
    (heard : Heard start [] [] connection) (asks : Asks id method connection) :
    Ends (sendRequest world fuel plan pooled id) connection (fun failure after => Heard start [] [] after ∧
      (failure = none → Receiving start method after)) (fun _ => Heard start [] []) := by
  have carries := carries_requesting world
  have sub := relaying_le_requesting
  have body : requesting (.entry .body) := by simp [requesting]
  have quiet : ¬ requesting (.entry .response) := by simp [requesting]
  obtain ⟨object, found, rfl⟩ := asks
  unfold sendRequest
  rw [ends_bind]
  have asked : Ends (requestObject id) connection
      (fun object' after => object' = object ∧ after = connection) (fun _ _ => False) := by
    unfold Ends
    rw [requestObject_found found]
    exact ⟨rfl, rfl⟩
  refine asked.mono (fun object' after same => ?_) fun _ _ => False.elim
  obtain ⟨rfl, rfl⟩ := same
  rw [modify_bind]
  refine lift_bind (fun target _ => ?_) fun _ => heard
  rw [get_bind, modify_bind]
  refine lift_bind (fun exchange started => ?_) fun _ => heard
  rw [modify_bind]
  have fresh := ProxyExchange.init_reception started
  refine Ends.mono (Evolves.ends (R := Moves requesting) ?_) (fun failure c moved => ?_) fun _ c
    moved => heard.of_moves quiet moved
  · refine .bind (proxyWriteQueued_carried carries sub fuel _ id) fun failure => ?_
    split
    · exact .pure _
    · refine .bind (forwardBody_carried carries sub body fuel _ id) fun failure => ?_
      split
      · exact .pure _
      · refine .bind (forwardChunks_carried carries sub body fuel _ id) fun failure => ?_
        split
        · exact .pure _
        · refine .bind (requestObject_moves id) fun object => ?_
          refine .bind (onExchange_moves (sub .exchange trivial) (sub .buffered trivial)
            (.inr (ProxyExchange.finishRequest_reception _))) fun _ => ?_
          exact proxyWriteQueued_carried carries sub fuel _ id
  · simp only [ProxyExchange.reception, Prod.mk.injEq] at fresh
    obtain ⟨codec, committed, -, finished, reusable⟩ := fresh
    refine ⟨heard.of_moves quiet moved, fun _ =>
      .of_moves moved ⟨[], exchange, [], heard, rfl, ?_, committed, finished, reusable⟩⟩
    rw [codec]
    rfl

/-- An upstream that may be used again: its response was decoded to the end from what was read. -/
def Reusable (start : List Entry) (method : Text) (connection : GatewayConnection) : Prop :=
  ∃ pieces closes exchange events, Heard start pieces closes connection ∧ connection.exchange =
    some exchange ∧
    Fed method pieces events exchange ∧ exchange.upstreamKeepAlive = true ∧ exchange.responseFinished = true

theorem exchangeOnce_told (plan : ProxyPlan) {id : Nat} (heard : Heard start [] [] connection)
    (asks : Asks id method connection) :
    Ends (exchangeOnce world fuel plan id) connection
      (fun result after => Told start method result.1.failure after ∧
      (result.2 = true → Reusable start method after)) (fun _ => OnlyEof start) := by
  have carries := carries_requesting world
  have sub := relaying_le_requesting
  have quiet : ¬ requesting (.entry .response) := by simp [requesting]
  unfold exchangeOnce
  rw [ends_bind]
  have acquires : Evolves (Moves requesting) (acquireUpstream world fuel id) :=
    acquireUpstream_carried carries (observing_le_relaying.trans sub) (by simp [requesting])
      (by simp [requesting]) fuel id
  refine acquires.ends.mono (fun acquired c moved => ?_) fun _ c moved =>
    (heard.of_moves quiet moved).onlyEof
  have heard := heard.of_moves quiet moved
  cases acquired with
  | error failure => exact ⟨heard.told _, nofun⟩
  | ok pooled =>
    rw [ends_bind]
    refine (sendRequest_receiving world fuel plan pooled heard (asks.of_moves moved)).mono
      (fun failure c sent => ?_)
      fun _ _ heard => heard.onlyEof
    cases failure with
    | some failure =>
      show Ends (exchangeView >>= _) c _ _
      rw [ends_bind]
      refine exchangeView_moves.ends.mono (fun _ c moved => ?_) fun _ c moved =>
        (sent.1.of_moves quiet moved).onlyEof
      exact ⟨(sent.1.of_moves quiet moved).told _, nofun⟩
    | none =>
      have timed {change : GatewayConnection → ProxyDeadline} : Evolves (Moves requesting)
          (modify fun connection => { connection with deadline := change connection }) :=
        .modify fun connection => { Moves.still connection with deadline := .inl (by simp [requesting]) }
      refine receiving_bind (nowMs_moves world) (sent.2 rfl) fun now c _ receiving => ?_
      refine receiving_bind timed receiving fun _ c _ receiving => ?_
      rw [ends_bind]
      refine (receiveLoop_told world fuel _ id receiving).mono (fun result c told => ?_) fun _ _
        only => only
      cases result with
      | some result => exact ⟨told.1, nofun⟩
      | none =>
        show Ends (modify _ >>= fun _ => exchangeView >>= _) c _ _
        have finished : Moves requesting c { c with deadline := c.deadline.finish } :=
          { Moves.still c with deadline := .inl (by simp [requesting]) }
        have answered := (told.2 rfl).of_moves finished
        obtain ⟨pieces, closes, exchange, heard, -, found, reused⟩ := answered
        rw [modify_bind]
        refine exchangeView_bind found ⟨told.1.of_moves quiet finished, fun stays => ?_⟩
        obtain ⟨keeps, ended⟩ := (Bool.and_eq_true _ _).mp stays
        obtain ⟨events, fed⟩ := reused keeps ended
        exact ⟨pieces, closes, exchange, events, heard, found, fed, keeps, ended⟩

end Receiving

/-- An attempt whose upstream is gone before its final head tells `reset-before-head` exactly when
the socket layer did not report the close as an end of file. What is assumed is that the request
exists. Nothing is assumed about the world, the plan or the connection. Attempts that raise, and
attempts whose upstream has sent its final head, are not spoken of. -/
theorem peer_close_told_iff (world : World) (fuel : Nat) (plan : ProxyPlan) (id number : Nat)
    (connection : GatewayConnection)
    (object : RequestObject) (found : connection.requests[id]? = some object) :
    Ends (proxyExchangeAttempt world fuel plan id number) connection (fun result after =>
      ∃ added, after.trace = connection.trace ++ added ∧ ∀ byEof ∈ peerCloses added,
        finalHead object.request.method (upstreamReads added) = false →
          (result.failure = some .resetBeforeHead ↔ byEof = false)) (fun _ _ => True) := by
  have quiet : ¬ bracketing (.entry .response) := by simp [bracketing]
  have asks : Asks id object.request.method connection := ⟨object, found, rfl⟩
  have heard : Heard connection.trace [] [] connection := ⟨[], (List.append_nil _).symm, rfl, rfl⟩
  have told : Ends (proxyExchangeAttempt world fuel plan id number) connection
      (fun result => Told connection.trace object.request.method result.failure) (fun _ _ => True) := by
    refine proxyExchangeAttempt_ends (B := OnlyEof connection.trace) (fun c moved => ?_)
      (fun c moved _ => ?_) (fun c code only => ?_)
      fun result before after moved => Told.of_moves quiet moved
    · exact (heard.of_moves quiet moved).told _
    · exact (exchangeOnce_told world fuel plan (heard.of_moves quiet moved) (asks.of_moves moved)).mono
        (fun _ _ told => told.1) fun _ _ only => only
    · obtain ⟨pieces, closes, heard, eof⟩ := only
      refine ⟨pieces, closes, heard, fun byEof member _ => ?_⟩
      simp only [eof byEof member, Bool.true_eq_false, iff_false]
      split <;> simp
  refine told.mono (fun result after told => ?_) fun _ _ _ => trivial
  obtain ⟨pieces, closes, ⟨added, grown, rfl, rfl⟩, same⟩ := told
  exact ⟨added, grown, same⟩

/-- An upstream that takes the request and is then gone, as `outcome` reports it. -/
def upstreamGone (outcome : ReadOutcome) : World where
  dispatchProxyHead := fun _ => .ok (some { upstream := "app".toList })
  poolReserve := fun _ => .ok (some { handle := -1, endpoint := ⟨"app".toList, 80⟩ })
  openUpstream := fun _ => .ok 7
  connectObserve := fun _ => .ok .connected
  upstreamWrite := fun _ data => .ok (.progress data.length)
  upstreamRead := fun _ => .ok outcome

/-- A connection with one request, which is to be proxied. -/
def proxiedGet : GatewayConnection :=
  (feedData (upstreamGone .eof) (ascii "GET / HTTP/1.1\r\nHost: a\r\n\r\n") 1 (init {})).1

/-- The attempt of `proxiedGet`. -/
def goneAttempt (outcome : ReadOutcome) : GatewayConnection × Except (Halt Exn) AttemptResult :=
  proxyExchangeAttempt (upstreamGone outcome) 3 { upstream := "app".toList } 0 1 proxiedGet

def goneFailure (outcome : ReadOutcome) : Option Failure :=
  (goneAttempt outcome).2.toOption.bind (·.failure)

/-- What the attempt of `proxiedGet` logged. -/
def goneTrace (outcome : ReadOutcome) : List Entry :=
  (goneAttempt outcome).1.trace.drop proxiedGet.trace.length

/-- A close that the socket layer reports as an error, told as it should be. -/
theorem peer_close_told_error :
    (goneAttempt .failed).2.isOk = true ∧ peerCloses (goneTrace .failed) = [false] ∧
    goneFailure .failed = some .resetBeforeHead := by
  obtain ⟨returns, closes, reads⟩ : (goneAttempt .failed).2.isOk = true ∧
      peerCloses (goneTrace .failed) = [false] ∧
      finalHead ("GET".toList) (upstreamReads (goneTrace .failed)) = false := by
    decide +kernel
  have request : proxiedGet.requests[0]?.map (·.request.method) = some ("GET".toList) := by decide +kernel
  obtain ⟨object, found, method⟩ := Option.map_eq_some_iff.mp request
  refine ⟨returns, closes, ?_⟩
  unfold goneFailure
  unfold goneTrace at closes reads
  -- the world stays a variable: the elaborator would run the attempt to see the head of `Ends`
  obtain ⟨world, isGone⟩ : ∃ world, world = upstreamGone .failed := ⟨_, rfl⟩
  have attempted : goneAttempt .failed =
      proxyExchangeAttempt world 3 { upstream := "app".toList } 0 1 proxiedGet := by
    rw [isGone, goneAttempt]
  have told := peer_close_told_iff world 3 { upstream := "app".toList } 0 1 proxiedGet object found
  generalize goneAttempt .failed = ended at *
  obtain ⟨after, error | result⟩ := ended
  · exact absurd returns Bool.false_ne_true
  · obtain ⟨added, grown, told⟩ := told.returned attempted.symm
    simp only [grown, List.drop_left] at closes reads
    exact (told false (by simp [closes]) (by rw [method]; exact reads)).mpr rfl

/-- The same close, told as an end of file, is a protocol failure: it is not of the class that is
retried. -/
theorem peer_close_told_eof : upstreamReads (goneTrace .eof) = [] ∧ peerCloses (goneTrace .eof) = [true] ∧
    goneFailure .eof = some .protocol ∧ goneFailure (.progress []) = some .resetBeforeHead ∧
    goneFailure .failed = some .resetBeforeHead := by
  decide +kernel

end GatewayConnection
end PccGateway
