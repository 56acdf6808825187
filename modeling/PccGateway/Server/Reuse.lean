import PccGateway.Proxy.UpstreamDecoding
import PccGateway.Server.PeerClose
import PccGateway.Server.UpstreamWrites

namespace PccGateway
namespace GatewayConnection
open Thread Method ProxyExchange

/-- The effects that write nothing to an upstream. -/
def unwriting (effect : Effect) : Prop := effect ≠ .entry .exchange

theorem serving_le_unwriting : serving ≤ unwriting := by
  rintro effect allowed rfl
  exact allowed

theorem delivering_le_unwriting : delivering ≤ unwriting := by
  rintro effect allowed rfl
  exact allowed

section Once
variable {start : List Entry} {id : Nat} {plan : ProxyPlan} {request : Request}
  {connection after : GatewayConnection}

/-- What an attempt has written for its request, to the endpoint that it got. -/
def Partly (start : List Entry) (id : Nat) (plan : ProxyPlan) (request : Request)
    (connection : GatewayConnection) : Prop :=
  ∃ endpoint, Forwarded start id plan endpoint request connection

theorem Partly.of_moves {E : Effect → Prop} (quiet : ¬ E (.entry .exchange))
    (moves : Moves E connection after)
    (partly : Partly start id plan request connection) : Partly start id plan request after := by
  obtain ⟨endpoint, nothing | ⟨head, headed, began⟩⟩ := partly
  · exact ⟨endpoint, .inl (nothing.of_moves quiet moves)⟩
  · exact ⟨endpoint, .inr ⟨head, headed, began.of_moves quiet moves⟩⟩

theorem Completed.of_moves {E : Effect → Prop} {endpoint : UpstreamEndpoint}
    (quiet : ¬ E (.entry .exchange))
    (moves : Moves E connection after) (completed : Completed start plan endpoint request connection) :
    Completed start plan endpoint request after := by
  obtain ⟨head, pieces, trailers, last, headed, ending, wrote⟩ := completed
  exact ⟨head, pieces, trailers, last, headed, ending, wrote.of_moves quiet moves⟩

variable (world : World) (fuel : Nat)

/-- The `try` of an attempt writes the beginning of the request. If the upstream may be used again, it
wrote all of it. -/
theorem exchangeOnce_forwards (proxies : Proxies id request connection)
    (wrote : Wrote start [] connection) :
    Ends (exchangeOnce world fuel plan id) connection
      (fun result after => Partly start id plan request after ∧
      (result.2 = true → ∃ endpoint, Completed start plan endpoint request after))
      (fun _ => Partly start id plan request) := by
  have carries : Carries world unwriting (Moves unwriting) := carries_moves world serving_le_unwriting
  have quiet : ¬ unwriting (.entry .exchange) := fun other => other rfl
  have observes := observing_le_delivering.trans delivering_le_unwriting
  unfold exchangeOnce
  rw [ends_bind]
  have acquires : Evolves (Moves unwriting) (acquireUpstream world fuel id) :=
    acquireUpstream_carried carries observes (by simp [unwriting]) (by simp [unwriting]) fuel id
  have nothing {c : GatewayConnection} (wrote : Wrote start [] c) : Partly start id plan request c :=
    ⟨⟨[], 0⟩, .inl wrote⟩
  refine acquires.ends.mono (fun acquired c moved => ?_) fun _ c moved =>
    nothing (wrote.of_moves quiet moved)
  cases acquired with
  | error failure => exact ⟨nothing (wrote.of_moves quiet moved), (by simp)⟩
  | ok pooled =>
    rw [ends_bind]
    refine (sendRequest_forwards world fuel plan pooled (proxies.of_moves moved)
      (wrote.of_moves quiet moved)).mono
      (fun failure c sent => ?_) fun _ c forwarded => ⟨_, forwarded⟩
    have begun : Partly start id plan request c := ⟨_, sent.1⟩
    cases failure with
    | some failure =>
      show Ends (exchangeView >>= _) c _ _
      rw [ends_bind]
      have views : Evolves (Moves unwriting) exchangeView := exchangeView_moves
      refine views.ends.mono (fun _ c moved => ⟨begun.of_moves quiet moved, (by simp)⟩) fun _ c
        moved => begun.of_moves quiet moved
    | none =>
      have timed {change : GatewayConnection → ProxyDeadline} : Evolves (Moves unwriting)
          (modify fun connection => { connection with deadline := change connection }) :=
        .modify fun connection => { Moves.still connection with deadline := .inl (by simp [unwriting]) }
      have receives : Evolves (Moves unwriting)
          (loop (fun _ => receivePass world fuel pooled.handle id) fuel ()) :=
        .loop (fun _ => receivePass_carried carries delivering_le_unwriting fuel (by simp [unwriting])
          (by simp [unwriting]) _ id)
          fuel ()
      refine Ends.mono (Evolves.ends (R := Moves unwriting) ?_)
        (fun result c moved => ⟨begun.of_moves quiet moved, fun _ =>
          ⟨_, (sent.2 rfl).of_moves quiet moved⟩⟩)
        fun _ c moved => begun.of_moves quiet moved
      refine .bind (nowMs_moves world) fun now => .bind timed fun _ => .bind receives fun result => ?_
      split
      · exact .pure _
      · exact .bind timed fun _ => .bind exchangeView_moves fun _ => .pure _

end Once

/-- The effects of the `finally` of an attempt. -/
def releasing : Effect → Prop
  | .buffered | .pooled | .exchange | .entry .lease | .entry .reuse => True
  | _ => False

/-- The effects that keep no upstream for reuse. -/
def unreusing (effect : Effect) : Prop := effect ≠ .entry .reuse

theorem serving_le_unreusing : serving ≤ unreusing := by
  rintro effect allowed rfl
  exact allowed

theorem exchanging_le_unreusing : exchanging ≤ unreusing := by
  rintro effect allowed rfl
  exact allowed

theorem releasing_le_requesting : releasing ≤ requesting := by
  intro effect allowed
  constructor <;>
  · rintro rfl
    exact allowed

/-- Since `start` no upstream was kept. -/
def Unreused (start : List Entry) (connection : GatewayConnection) : Prop :=
  ∃ added, connection.trace = start ++ added ∧ ∀ handle, .idle handle ∉ added

theorem Unreused.of_moves {start : List Entry} {before after : GatewayConnection}
    (moves : Moves unreusing before after)
    (unreused : Unreused start before) : Unreused start after := by
  obtain ⟨added, trace, none⟩ := unreused
  obtain ⟨more, grown, kinds⟩ := moves.trace
  refine ⟨added ++ more, by rw [grown, trace, List.append_assoc], fun handle member => ?_⟩
  rcases List.mem_append.mp member with old | new
  · exact none handle old
  · exact kinds _ new rfl

section Bracket
variable {world : World} {fuel : Nat} {plan : ProxyPlan} {id number : Nat} {connection : GatewayConnection}

theorem releaseAttempt_moves {E : Effect → Prop} (exchanges : E .exchange) (buffers : E .buffered)
    (pooled : E .pooled)
    (lease : E (.entry .lease)) (running reusable : Bool) (reuse : reusable = true → E (.entry .reuse)) :
    Evolves (Moves E) (settle [
      when running (onExchange world (ProxyExchange.cancel "attempt complete")),
      releasePooled world reusable,
      GatewayConnection.release .upstream] : Call (Option Exn)) := by
  refine .settle_cons
    (.when (onExchange_moves exchanges buffers (.inr (ProxyExchange.cancel_reception _)))) ?_
  exact .settle_cons (releasePooled_moves pooled lease _ reuse)
    (.settle_cons (note_moves lease) .settle_nil)

/-- An attempt keeps its upstream for reuse only when its `try` said so, and then what held there
still holds. -/
theorem proxyExchangeAttempt_reuses {P : GatewayConnection → Prop}
    (once : ∀ c, Moves bracketing connection c → Ends (exchangeOnce world fuel plan id) c
      (fun result after => result.2 = true → P after) (fun _ _ => True))
    (stable : ∀ before after, Moves releasing before after → P before → P after) :
    Ends (proxyExchangeAttempt world fuel plan id number) connection
      (fun _ after => Unreused connection.trace after ∨ P after)
      (fun _ after => Unreused connection.trace after ∨ P after) := by
  have fresh : Unreused connection.trace connection := ⟨[], (List.append_nil _).symm, (by simp)⟩
  have quietly {α : Type} {call : Call α} {c : GatewayConnection} {next : α → Call AttemptResult}
      {post : GatewayConnection → Prop} (unreused : Unreused connection.trace c)
        (within : Moves bracketing connection c)
      (moves : ∀ {E : Effect → Prop},
        (∀ effect, bracketing effect → effect ≠ .entry .reuse → E effect) → Evolves (Moves E) call)
      (weak : ∀ after, Unreused connection.trace after → post after)
      (later : ∀ a after, Unreused connection.trace after → Moves bracketing connection after →
        Ends (next a) after (fun _ => post) (fun _ => post)) : Ends (call >>= next) c (fun _ => post)
          (fun _ => post) := by
    have both : Evolves (Moves fun effect => bracketing effect ∧ effect ≠ .entry .reuse) call :=
      moves fun _ is not => ⟨is, not⟩
    rw [ends_bind]
    refine both.ends.mono (fun a after moved => ?_) fun _ after moved => ?_
    · exact later a after (unreused.of_moves (moved.mono fun _ is => is.2))
        (within.trans (moved.mono fun _ is => is.1))
    · exact weak _ (unreused.of_moves (moved.mono fun _ is => is.2))
  unfold proxyExchangeAttempt
  refine quietly fresh (.still _) (fun allowed => note_moves (allowed _ trivial (by rintro ⟨⟩)))
    (fun _ => .inl) fun _ c unreused within => ?_
  refine quietly unreused within (fun _ => nowMs_moves world) (fun _ => .inl) fun now c unreused
    within => ?_
  refine quietly unreused within (fun allowed => .modify fun connection => { Moves.still connection with
    deadline := .inl (allowed _ trivial (by simp))
    pooled := .inl (allowed _ trivial (by simp))
    exchange := .inl (allowed _ trivial (by simp))
    response := .inl (allowed _ trivial (by simp)) }) (fun _ => .inl) fun _ c unreused within => ?_
  refine quietly unreused within (fun allowed => .bind (ask_moves world _) fun admitted =>
    .bind (.when (note_moves (allowed _ trivial (by rintro ⟨⟩)))) fun _ => .pure _) (fun _ => .inl)
      fun admitted c unreused within => ?_
  refine .ite (fun _ => .inl unreused) fun _ => ?_
  have closes {c : GatewayConnection} (outcome : Except Exn (AttemptResult × Bool))
      (unreused : Unreused connection.trace c)
      (returned : ∀ result, outcome = .ok result → result.2 = true → P c) :
        Ends (concludeAttempt world outcome) c
        (fun _ after => Unreused connection.trace after ∨ P after) (fun _ after =>
          Unreused connection.trace after ∨ P after) := by
    unfold concludeAttempt
    rw [ends_bind]
    have recovered : Ends (recoverProtocol outcome) c (fun outcome' after =>
        after = c ∧ ((outcome'.toOption.elim false (·.2)) = true → P c)) (fun _ _ => False) := by
      unfold recoverProtocol
      split
      · exact ⟨rfl, by rintro ⟨⟩⟩
      · refine ⟨rfl, fun reusable => ?_⟩
        cases outcome with
        | error error => cases reusable
        | ok result => exact returned result rfl reusable
    refine recovered.mono (fun outcome' after facts => ?_) fun _ _ => False.elim
    obtain ⟨rfl, kept⟩ := facts
    rw [get_bind, ends_bind]
    have settled : Ends (settle [
        when after.exchange.isSome (onExchange world (ProxyExchange.cancel "attempt complete")),
        releasePooled world (outcome'.toOption.elim false (·.2)),
        GatewayConnection.release .upstream]) after
          (fun _ final => Unreused connection.trace final ∨ P final)
          (fun _ final => Unreused connection.trace final ∨ P final) := by
      cases reusable : outcome'.toOption.elim false (·.2) with
      | false =>
        have moves := @releaseAttempt_moves world unreusing (by rintro ⟨⟩) (by rintro ⟨⟩)
          (by rintro ⟨⟩) (by rintro ⟨⟩) after.exchange.isSome
          false (by rintro ⟨⟩)
        exact moves.ends.mono (fun _ _ moved => .inl (unreused.of_moves moved)) fun _ _ moved =>
          .inl (unreused.of_moves moved)
      | true =>
        have moves := @releaseAttempt_moves world releasing trivial trivial trivial trivial
          after.exchange.isSome true
          fun _ => trivial
        have holds := kept reusable
        exact moves.ends.mono (fun _ _ moved => .inr (stable _ _ moved holds)) fun _ _ moved =>
          .inr (stable _ _ moved holds)
    refine settled.mono (fun error final isOver => ?_) fun _ _ isOver => isOver
    cases outcome' with
    | error primary => exact isOver
    | ok result => cases error <;> exact isOver
  rw [ends_bind, ends_attempt]
  have stays : Evolves (Moves unreusing) (exchangeOnce world fuel plan id) :=
    exchangeOnce_carried (carries_moves world serving_le_unreusing) fuel exchanging_le_unreusing plan id
  refine ((once c within).and stays.ends).mono (fun result after facts => ?_) fun halt after facts => ?_
  · exact closes (.ok result) (unreused.of_moves facts.2) (by rintro _ ⟨⟩; exact facts.1)
  · cases halt with
    | raised error => exact closes (.error error) (unreused.of_moves facts.2) (by simp)
    | parked => exact .inl (unreused.of_moves facts.2)
    | unfinished => exact .inl (unreused.of_moves facts.2)

theorem Reusable.of_moves {start : List Entry} {method : Text} {before after : GatewayConnection}
    (moves : Moves releasing before after) (reusable : Reusable start method before) :
    Reusable start method after := by
  have moves := moves.mono releasing_le_requesting
  obtain ⟨pieces, closes, exchange, events, heard, found, fed, keeps, ended⟩ := reusable
  obtain ⟨exchange', found', same⟩ := reception_of_moves moves found
  have fields := same
  simp only [ProxyExchange.reception, Prod.mk.injEq] at fields
  obtain ⟨-, -, -, finished, stays⟩ := fields
  exact ⟨pieces, closes, exchange', events, heard.of_moves (by simp [requesting]) moves, found',
    fed.of_reception same, stays.trans keeps, finished.trans ended⟩

/-- The response of an upstream that is kept was decoded to its end, nothing is left of it, and the
request was written. -/
theorem kept_exchange {start : List Entry} {request : Request} {after : GatewayConnection}
    (reusable : Reusable start request.method after)
    (completed : ∃ endpoint, Completed start plan endpoint request after) :
    ∃ added, after.trace = start ++ added ∧ ∃ exchange events head, after.exchange = some exchange ∧
      Http1UpstreamCodec.feedAll { requestMethod := upper (upper request.method), limits := {} }
        (upstreamReads added) = (exchange.codec, .ok events) ∧
      .responseHead head ∈ events ∧ head.informational = false ∧ head.Delimited ∧
      exchange.codec.complete = true ∧ exchange.codec.buffer = [] ∧
      ∃ endpoint headWire pieces trailers last, attemptHead plan endpoint request = .ok headWire ∧
        Ending request.contentLength request.chunkedBody pieces (some trailers) last ∧
        upstreamWrites added = headWire ++ bodyWire request.chunkedBody pieces ++ last := by
  obtain ⟨reads, closes, exchange, events, ⟨added, grown, rfl, -⟩, found, fed, keeps, ended⟩ := reusable
  obtain ⟨endpoint, headWire, pieces, trailers, last, headed, ending, ⟨added', grown', wrote⟩⟩ := completed
  have same : added' = added := List.append_cancel_left (grown'.symm.trans grown)
  subst same
  have progress := fed.progress
  obtain ⟨head, member, final, delimited, -⟩ := progress.reusable_head (fed.reusable.symm.trans keeps)
  have isOver : events.any UpstreamEvent.isEnd = true := fed.finished.symm.trans ended
  have complete : exchange.codec.complete = true := by
    cases progress with
    | heads => simp [UpstreamEvent.isEnd] at isOver
    | body => simp [UpstreamEvent.isEnd] at isOver
    | done _ complete => exact complete
  have settled := Http1UpstreamCodec.feedAll_settled ⟨rfl, fun isOver =>
    absurd isOver Bool.false_ne_true⟩ fed.decoded
  exact ⟨added', grown, exchange, events, head, found, fed.decoded, member, final, delimited,
    complete, (settled.2 complete).2,
    endpoint, headWire, pieces, trailers, last, headed, ending, wrote⟩

end Bracket

/-- The decoder of upstream responses. How the stream is cut into reads changes neither the events,
bodies merged, nor the state; a response has at most one final head, one end with nothing after it,
and no more body than the limit. An attempt keeps its upstream for reuse only when the response told
its own end, the codec has taken all that was read, and the whole request was written. The first two
parts are about the codec alone, for every method and every limits. What is assumed there is that
nothing raises. The third part is about every attempt that finds its request, in any world and from
any state of the connection. -/
theorem upstream_decoding (method : Text) (limits : UpstreamLimits) :
    (∀ first second last last' events events', first.flatten = second.flatten →
      Http1UpstreamCodec.feedAll { requestMethod := upper method, limits := limits } first =
        (last, .ok events) →
      Http1UpstreamCodec.feedAll { requestMethod := upper method, limits := limits } second =
        (last', .ok events') → last = last' ∧ mergeBodies events = mergeBodies events') ∧
    (∀ pieces last events,
      Http1UpstreamCodec.feedAll { requestMethod := upper method, limits := limits } pieces =
        (last, .ok events) →
        ∀ all, all = events ∨ (∃ next new, last.eof = (next, .ok new) ∧ all = events ++ new) →
          OneResponse all ∧ ((bodyData all).length : Int) ≤ max 0 limits.maxBodyBytes) ∧
    ∀ (world : World) (fuel : Nat) (plan : ProxyPlan) (id number : Nat)
      (connection : GatewayConnection) (object : RequestObject),
      connection.requests[id]? = some object →
        let after := (proxyExchangeAttempt world fuel plan id number connection).1
        ∃ added, after.trace = connection.trace ++ added ∧ ∀ handle, .idle handle ∈ added →
          ∃ exchange events head, after.exchange = some exchange ∧
            Http1UpstreamCodec.feedAll
              { requestMethod := upper (upper object.request.method), limits := {} }
              (upstreamReads added) = (exchange.codec, .ok events) ∧
            .responseHead head ∈ events ∧ head.informational = false ∧ head.Delimited ∧
            exchange.codec.complete = true ∧ exchange.codec.buffer = [] ∧
            ∃ endpoint headWire pieces trailers last, attemptHead plan endpoint object.request =
              .ok headWire ∧
              Ending object.request.contentLength object.request.chunkedBody pieces (some trailers) last ∧
              upstreamWrites added = headWire ++ bodyWire object.request.chunkedBody pieces ++ last := by
  refine ⟨fun _ _ _ _ _ _ same run run' => Http1UpstreamCodec.feedAll_agree same run run', ?_, ?_⟩
  · intro pieces last events run all which
    have fresh : Progress { requestMethod := upper method, limits := limits } [] :=
      @Progress.heads _ [] rfl rfl rfl (by simp)
    have progress := fresh.feedAll run
    have received := (Http1UpstreamCodec.Received.fresh (upper method) limits).feedAll run
    rw [List.nil_append] at progress received
    have within : ((bodyData events).length : Int) ≤ max 0 limits.maxBodyBytes := by
      have room := received.room
      rw [(Http1UpstreamCodec.feedAll_frame run).2.1] at room
      rw [received.count]
      simp only at room
      omega
    rcases which with rfl | ⟨next, new, eof, rfl⟩
    · exact ⟨progress.oneResponse, within⟩
    · refine ⟨(progress.eof eof).oneResponse, ?_⟩
      have silent : bodyData new = [] := by
        unfold Http1UpstreamCodec.eof at eof
        split at eof
        · cases eof
          rfl
        · split at eof <;> cases eof
          rfl
      rw [Http1UpstreamCodec.bodyData_append, silent, List.append_nil]
      exact within
  · intro world fuel plan id number connection object found
    have quiet : ¬ bracketing (.entry .response) := by simp [bracketing]
    have unwritten : ¬ bracketing (.entry .exchange) := by simp [bracketing]
    have asks : Asks id object.request.method connection := ⟨object, found, rfl⟩
    have heard : Heard connection.trace [] [] connection := ⟨[], (List.append_nil _).symm, rfl, rfl⟩
    have wrote : Wrote connection.trace [] connection := ⟨[], (List.append_nil _).symm, rfl⟩
    have proxies : Proxies id object.request connection := ⟨object, found, rfl⟩
    have reuses := @proxyExchangeAttempt_reuses world fuel plan id number connection
      (fun after => Reusable connection.trace object.request.method after ∧
        ∃ endpoint, Completed connection.trace plan endpoint object.request after)
      (fun c moved => by
        have told := exchangeOnce_told world fuel plan (heard.of_moves quiet moved) (asks.of_moves moved)
        have forwards := @exchangeOnce_forwards _ _ plan _ _ world fuel (proxies.of_moves moved)
          (wrote.of_moves unwritten moved)
        exact (told.and forwards).mono
          (fun result after facts reusable => ⟨facts.1.2 reusable, facts.2.2 reusable⟩)
          fun _ _ _ => trivial)
      (fun before after moved held => ⟨held.1.of_moves moved, held.2.imp fun _ completed =>
        completed.of_moves (by simp [releasing]) moved⟩)
    have either : Unreused connection.trace (proxyExchangeAttempt world fuel plan id number connection).1 ∨
        (Reusable connection.trace object.request.method (proxyExchangeAttempt world fuel plan id
          number connection).1 ∧ ∃ endpoint, Completed connection.trace plan endpoint object.request
            (proxyExchangeAttempt world fuel plan id number connection).1) := by
      unfold Ends at reuses
      split at reuses <;> rename_i run <;> rw [run] <;> exact reuses
    rcases either with ⟨added, grown, none⟩ | ⟨reusable, completed⟩
    · exact ⟨added, grown, fun handle member => absurd member (none handle)⟩
    · obtain ⟨added, grown, kept⟩ := kept_exchange reusable completed
      exact ⟨added, grown, fun _ _ => kept⟩

/-- A response with two bytes. -/
def okResponse : Bytes := ascii "HTTP/1.1 200 OK\r\nContent-Length: 2\r\n\r\nok"

def okDecoded (pieces : List Bytes) : Http1UpstreamCodec × Except Exn (List UpstreamEvent) :=
  Http1UpstreamCodec.feedAll { requestMethod := upper "get".toList, limits := .standard } pieces

/-- An upstream that answers so and stays open, and a client that takes what it is sent. -/
def upstreamAnswers : World :=
  { upstreamGone .eof with
    upstreamRead := fun _ => .ok (.progress okResponse)
    write := fun _ data => .ok (.progress data.length) }

/-- The attempt of `proxiedGet`. -/
def answeredAttempt : GatewayConnection :=
  (proxyExchangeAttempt upstreamAnswers 9 { upstream := "app".toList } 0 1 proxiedGet).1

def isIdle (handle : Int) : Entry → Bool
  | .idle other => decide (other = handle)
  | _ => false

theorem isIdle_iff {handle : Int} {entry : Entry} : isIdle handle entry = true ↔ entry = .idle handle := by
  cases entry <;> simp [isIdle]

theorem upstream_decoding_kept :
    (∃ last events events', okDecoded [okResponse.take 39, okResponse.drop 39] = (last, .ok events) ∧
      okDecoded [okResponse] = (last, .ok events') ∧ mergeBodies events = mergeBodies events' ∧
      OneResponse events) ∧
    ∃ added, .idle 7 ∈ added ∧ answeredAttempt.trace = proxiedGet.trace ++ added ∧
      ∃ exchange, answeredAttempt.exchange = some exchange ∧ exchange.codec.complete = true ∧
      exchange.codec.buffer = [] := by
  constructor
  · obtain ⟨decodes, decodes'⟩ : (okDecoded [okResponse.take 39, okResponse.drop 39]).2.isOk = true ∧
        (okDecoded [okResponse]).2.isOk = true := by
      rw [okResponse, ascii_ofList]
      decide
    have same : [okResponse.take 39, okResponse.drop 39].flatten = [okResponse].flatten := by simp
    have decoded (pieces : List Bytes) : Http1UpstreamCodec.feedAll
        { requestMethod := upper "get".toList, limits := {} } pieces = okDecoded pieces := rfl
    obtain ⟨agrees, shaped, -⟩ := upstream_decoding "get".toList {}
    simp only [decoded] at agrees shaped
    have agreed := fun last last' events events' => agrees _ _ last last' events events' same
    have shaped := shaped [okResponse.take 39, okResponse.drop 39]
    generalize okDecoded [okResponse.take 39, okResponse.drop 39] = first at *
    generalize okDecoded [okResponse] = second at *
    obtain ⟨last, error | events⟩ := first
    · cases decodes
    · obtain ⟨last', error | events'⟩ := second
      · cases decodes'
      · obtain ⟨rfl, merged⟩ := agreed _ _ _ _ rfl rfl
        exact ⟨last, events, events', rfl, rfl, merged, (shaped _ _ rfl _ (.inl rfl)).1⟩
  · obtain ⟨idled, request⟩ : (answeredAttempt.trace.drop proxiedGet.trace.length).any (isIdle 7) = true ∧
        proxiedGet.requests[0]?.isSome = true := by
      decide +kernel
    obtain ⟨object, found⟩ := Option.isSome_iff_exists.mp request
    -- the world stays a variable: the elaborator would run the attempt
    obtain ⟨world, is⟩ : ∃ world, world = upstreamAnswers := ⟨_, rfl⟩
    have attempted : answeredAttempt =
        (proxyExchangeAttempt world 9 { upstream := "app".toList } 0 1 proxiedGet).1 := by
      rw [is, answeredAttempt]
    obtain ⟨-, -, keeps⟩ := upstream_decoding "get".toList {}
    obtain ⟨added, grown, kept⟩ := keeps world 9 { upstream := "app".toList } 0 1 proxiedGet object found
    rw [← attempted] at grown kept
    generalize answeredAttempt = after at *
    rw [grown, List.drop_left] at idled
    obtain ⟨entry, member, idle⟩ := List.any_eq_true.mp idled
    obtain rfl := isIdle_iff.mp idle
    obtain ⟨exchange, events, head, held, -, -, -, -, complete, empty, -⟩ := kept 7 member
    exact ⟨added, member, grown, exchange, held, complete, empty⟩

end GatewayConnection
end PccGateway
