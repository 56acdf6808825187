import PccGateway.Proxy.Exchange

namespace PccGateway

/-- A well-formed buffer that is empty once it is closed. -/
structure ChannelBuffer.Sound (buffer : ChannelBuffer) : Prop where
  valid : buffer.WellFormed
  drained : buffer.closed = true → buffer.queuedBytes = 0

namespace ChannelBuffer
variable {buffer next : ChannelBuffer}

theorem Sound.close (sound : buffer.Sound) :
    buffer.close.Sound ∧ buffer.close.queuedBytes = 0 ∧ buffer.close.closed = true := by
  unfold ChannelBuffer.close
  by_cases already : buffer.closed = true
  · rw [if_pos already]
    exact ⟨sound, sound.drained already, already⟩
  · rw [if_neg already]
    exact ⟨⟨⟨rfl, .inl rfl, le_rfl⟩, fun _ => rfl⟩, rfl, rfl⟩

theorem transitionAfterGrowth_frame (buffer : ChannelBuffer) :
    buffer.transitionAfterGrowth.1.closed = buffer.closed ∧
    buffer.transitionAfterGrowth.1.queuedBytes = buffer.queuedBytes := by
  unfold transitionAfterGrowth
  split <;> exact ⟨rfl, rfl⟩

theorem closed_of_settings (same : next.settings = buffer.settings) : next.closed = buffer.closed :=
  congrArg (·.2.2.2.2) same

/-- Growth by views that hold `data`. -/
theorem grow_sound (sound : buffer.Sound) (opened : buffer.closed = false) {added : List Bytes}
    {data : Bytes}
    (same : added.flatten = data) : ∃ next transition, transitionAfterGrowth { buffer with
      views := buffer.views ++ added
      queuedBytes := buffer.queuedBytes + data.length } = (next, .ok transition) ∧
        next.Sound ∧ next.queuedBytes = buffer.queuedBytes + data.length ∧ next.closed = buffer.closed := by
  have frame := transitionAfterGrowth_frame { buffer with
    views := buffer.views ++ added
    queuedBytes := buffer.queuedBytes + data.length }
  obtain ⟨next, transition, run⟩ : ∃ next transition, transitionAfterGrowth { buffer with
      views := buffer.views ++ added
      queuedBytes := buffer.queuedBytes + data.length } = (next, .ok transition) := by
    unfold transitionAfterGrowth
    split <;> exact ⟨_, _, rfl⟩
  rw [run] at frame
  have closed : next.closed = false := frame.1.trans opened
  exact ⟨next, transition, run, ⟨(grow_wellFormed sound.valid same run).1,
    fun isOver => by simp [closed] at isOver⟩, frame.2, frame.1⟩

/-- An append changes nothing, or it lengthens the queue by what was appended. -/
theorem append_cases (sound : buffer.Sound) (data : Bytes) (isView : Bool) :
    (∃ error, (if isView then appendView data else append data) buffer = (buffer, .error error)) ∨
      ∃ next transition, (if isView then appendView data else append data) buffer = (next, .ok transition) ∧
        next.Sound ∧ next.queuedBytes = buffer.queuedBytes + data.length ∧ next.closed = buffer.closed := by
  by_cases closed : buffer.closed = true
  · cases isView <;> exact .inl ⟨_, if_pos closed⟩
  · have opened : buffer.closed = false := by simpa using closed
    by_cases full : buffer.maxBytes < buffer.queuedBytes + data.length
    · cases isView <;> exact .inl ⟨_, (if_neg closed).trans (if_pos full)⟩
    · refine .inr ?_
      cases isView with
      | false =>
        obtain ⟨next, transition, run, rest⟩ :=
          grow_sound sound opened (segments_flatten buffer.segment_pos le_rfl)
        exact ⟨next, transition, ((if_neg closed).trans (if_neg full)).trans run, rest⟩
      | true =>
        obtain ⟨next, transition, run, rest⟩ := grow_sound sound opened (show [data].flatten = data by simp)
        exact ⟨next, transition, ((if_neg closed).trans (if_neg full)).trans run, rest⟩

/-- A read shortens the queue by what it returns. -/
theorem read_sound (sound : buffer.Sound) (limit : Int) :
    ∃ next data, buffer.read limit = (next, .ok data) ∧ next.Sound ∧
    next.queuedBytes + data.length = buffer.queuedBytes ∧ next.closed = buffer.closed := by
  obtain ⟨next, run, valid, contents⟩ := read_wellFormed sound.valid limit
  have bound := buffer.readLength_le limit
  have same : next.closed = buffer.closed := by
    have kept := read_settings limit buffer
    rw [run] at kept
    exact closed_of_settings kept
  have left : next.queuedBytes = buffer.queuedBytes - buffer.readLength limit := by
    rw [valid.queued, contents, List.length_drop, sound.valid.queued]
  refine ⟨next, _, run, ⟨valid, fun closed => ?_⟩, ?_, same⟩
  · have := sound.drained (same ▸ closed)
    omega
  · rw [List.length_take, ← sound.valid.queued]
    omega

end ChannelBuffer
namespace ProxyExchange
open Method

/-- The bytes that an exchange holds, in both directions. -/
def held (exchange : ProxyExchange) : Nat :=
  exchange.toUpstream.queuedBytes + exchange.toDownstream.queuedBytes

/-- The gauge covers what the exchange holds, and stays within its limit. -/
structure Solvent (exchange : ProxyExchange) (ledger : Ledger) : Prop where
  accounting : exchange.accounting = some ledger
  upstream : exchange.toUpstream.Sound
  downstream : exchange.toDownstream.Sound
  covered : exchange.held ≤ ledger.buffered
  within : (ledger.buffered : Int) ≤ ledger.maxBuffered
  isOver : exchange.cancelled = true → exchange.toUpstream.closed = true ∧
    exchange.toDownstream.closed = true

/-- Whatever happened in between, the gauge moved as the exchange's queues did. -/
def Balances (exchange next : ProxyExchange) : Prop :=
  ∀ ledger, exchange.Solvent ledger → ∃ after, next.Solvent after ∧ after.maxBuffered = ledger.maxBuffered ∧
    after.buffered + exchange.held = ledger.buffered + next.held

instance : IsPreorder ProxyExchange Balances where
  refl := fun _ ledger solvent => ⟨ledger, solvent, rfl, rfl⟩
  trans := fun first second third before after ledger solvent => by
    obtain ⟨middle, held, limit, moved⟩ := before ledger solvent
    obtain ⟨last, held', limit', moved'⟩ := after middle held
    exact ⟨last, held', limit'.trans limit, by omega⟩

/-- A change of neither the queues nor the accounting. -/
theorem balances_of_eq {exchange next : ProxyExchange} (accounting : next.accounting = exchange.accounting)
    (up : next.toUpstream = exchange.toUpstream) (down : next.toDownstream = exchange.toDownstream)
    (cancelled : next.cancelled = exchange.cancelled) : Balances exchange next := fun ledger solvent => by
  have same : next.held = exchange.held := by simp [held, up, down]
  refine ⟨ledger, ⟨accounting.trans solvent.accounting, up ▸ solvent.upstream, down ▸ solvent.downstream,
    same ▸ solvent.covered, solvent.within, ?_⟩, rfl, by rw [same]⟩
  rw [cancelled, up, down]
  exact solvent.isOver

/-- The exchange with its gauge moved. -/
def withBuffered (exchange : ProxyExchange) (ledger : Ledger) (buffered : Nat) : ProxyExchange :=
  { exchange with accounting := some { ledger with buffered := buffered } }

section Ledger
variable {exchange : ProxyExchange} {ledger : Ledger}

theorem withBuffered_self (accounting : exchange.accounting = some ledger) :
    exchange.withBuffered ledger ledger.buffered = exchange := by
  unfold withBuffered
  rw [← accounting]

/-- A reservation is refused, or it moves the gauge up within its limit. -/
theorem reserve_cases (accounting : exchange.accounting = some ledger)
    (within : (ledger.buffered : Int) ≤ ledger.maxBuffered)
    (count : Nat) : (∃ error, reserve count exchange = (exchange, .error error)) ∨
      reserve count exchange = (exchange.withBuffered ledger (ledger.buffered + count), .ok ()) ∧
        ((ledger.buffered + count : Nat) : Int) ≤ ledger.maxBuffered := by
  unfold reserve
  rw [accounting]
  simp only
  by_cases zero : count = 0
  · rw [if_pos zero]
    refine .inr ⟨?_, by omega⟩
    rw [zero, Nat.add_zero, withBuffered_self accounting]
  · rw [if_neg zero]
    by_cases overload : ledger.maxBuffered < (ledger.buffered + count : Nat)
    · exact .inl ⟨_, if_pos overload⟩
    · exact .inr ⟨if_neg overload, by omega⟩

/-- A release of what the gauge covers moves it down. -/
theorem release_eq (accounting : exchange.accounting = some ledger) {count : Nat}
    (covered : count ≤ ledger.buffered) :
    release count exchange = (exchange.withBuffered ledger (ledger.buffered - count), .ok ()) := by
  unfold release
  rw [accounting]
  simp only
  by_cases zero : count = 0
  · rw [if_pos zero, zero, Nat.sub_zero, withBuffered_self accounting]
  · rw [if_neg zero, if_neg (Nat.not_lt.mpr covered)]
    rfl

end Ledger

/-- One of the two queues of an exchange. -/
structure IsQueue (queue : ProxyExchange → ChannelBuffer) (put : ChannelBuffer → ProxyExchange →
      ProxyExchange) : Prop where
  get_withBuffered : ∀ exchange ledger buffered, queue (exchange.withBuffered ledger buffered) =
    queue exchange
  put_withBuffered : ∀ buffer exchange ledger buffered,
    put buffer (exchange.withBuffered ledger buffered) = (put buffer exchange).withBuffered ledger buffered
  put_get : ∀ exchange, put (queue exchange) exchange = exchange
  put_accounting : ∀ buffer exchange, (put buffer exchange).accounting = exchange.accounting
  sound : ∀ (exchange : ProxyExchange) ledger, exchange.Solvent ledger → (queue exchange).Sound
  le_held : ∀ exchange, (queue exchange).queuedBytes ≤ exchange.held
  moved : ∀ (exchange : ProxyExchange) ledger buffer buffered, exchange.Solvent ledger → buffer.Sound →
    buffer.closed = (queue exchange).closed → buffered + (queue exchange).queuedBytes =
      ledger.buffered + buffer.queuedBytes → (buffered : Int) ≤ ledger.maxBuffered →
    ((put buffer exchange).withBuffered ledger buffered).Solvent { ledger with buffered := buffered } ∧
      buffered + exchange.held = ledger.buffered + ((put buffer exchange).withBuffered ledger buffered).held

theorem upstream_isQueue :
    IsQueue (·.toUpstream) (fun buffer exchange => { exchange with toUpstream := buffer }) where
  get_withBuffered := fun _ _ _ => rfl
  put_withBuffered := fun _ _ _ _ => rfl
  put_get := fun _ => rfl
  put_accounting := fun _ _ => rfl
  sound := fun _ _ solvent => solvent.upstream
  le_held := fun _ => Nat.le_add_right _ _
  moved := fun exchange ledger buffer buffered solvent sound closed moved within => by
    have covered := solvent.covered
    simp only [held, withBuffered] at covered ⊢
    refine ⟨⟨rfl, sound, solvent.downstream, by simp only [held]; omega, within, fun isOver => ?_⟩,
      by omega⟩
    exact ⟨closed.trans (solvent.isOver isOver).1, (solvent.isOver isOver).2⟩

theorem downstream_isQueue :
    IsQueue (·.toDownstream) (fun buffer exchange => { exchange with toDownstream := buffer }) where
  get_withBuffered := fun _ _ _ => rfl
  put_withBuffered := fun _ _ _ _ => rfl
  put_get := fun _ => rfl
  put_accounting := fun _ _ => rfl
  sound := fun _ _ solvent => solvent.downstream
  le_held := fun _ => Nat.le_add_left _ _
  moved := fun exchange ledger buffer buffered solvent sound closed moved within => by
    have covered := solvent.covered
    simp only [held, withBuffered] at covered ⊢
    refine ⟨⟨rfl, solvent.upstream, sound, by simp only [held]; omega, within, fun isOver => ?_⟩, by omega⟩
    exact ⟨(solvent.isOver isOver).1, closed.trans (solvent.isOver isOver).2⟩

namespace IsQueue
variable {queue : ProxyExchange → ChannelBuffer} {put : ChannelBuffer → ProxyExchange → ProxyExchange}

/-- Reserve, append, and release again when the append raised: then nothing has changed. -/
theorem append_cases (isQueue : IsQueue queue put) {exchange : ProxyExchange} {ledger : Ledger}
    (solvent : exchange.Solvent ledger) (data : Bytes) (isView : Bool) :
    (∃ error, (do
        reserve data.length
        Method.cleaning (Method.on queue put (if isView then ChannelBuffer.appendView data
          else ChannelBuffer.append data))
          (release data.length) : Call Transition) exchange = (exchange, .error error)) ∨
      ∃ next after transition, (do
          reserve data.length
          Method.cleaning (Method.on queue put (if isView then ChannelBuffer.appendView data
            else ChannelBuffer.append data))
            (release data.length) : Call Transition) exchange = (next, .ok transition) ∧
            next.Solvent after ∧
        after.maxBuffered = ledger.maxBuffered ∧
          after.buffered + exchange.held = ledger.buffered + next.held := by
  rw [bind_run]
  rcases reserve_cases solvent.accounting solvent.within data.length with ⟨error, run⟩ | ⟨run, within⟩
  · rw [run]
    exact .inl ⟨error, rfl⟩
  · rw [run]
    simp only [cleaning, Method.on, isQueue.get_withBuffered]
    rcases ChannelBuffer.append_cases (isQueue.sound exchange ledger solvent) data isView with
      ⟨error, append⟩ | ⟨next, transition, append, nextSound, queued, same⟩
    · have undone : release data.length (exchange.withBuffered ledger (ledger.buffered + data.length)) =
          (exchange.withBuffered ledger ledger.buffered, .ok ()) := by
        have account : (exchange.withBuffered ledger (ledger.buffered + data.length)).accounting =
            some { ledger with buffered := ledger.buffered + data.length } := rfl
        rw [release_eq account (Nat.le_add_left _ _)]
        simp [withBuffered]
      rw [append]
      simp only [isQueue.put_withBuffered, isQueue.put_get, undone]
      rw [withBuffered_self solvent.accounting]
      exact .inl ⟨error, rfl⟩
    · rw [append]
      simp only [isQueue.put_withBuffered]
      obtain ⟨after, moved⟩ := isQueue.moved exchange ledger next _ solvent nextSound same (by omega) within
      exact .inr ⟨_, _, transition, rfl, after, rfl, moved⟩

theorem append_balances (isQueue : IsQueue queue put) (data : Bytes) (isView : Bool) :
    Evolves Balances (do
      reserve data.length
      Method.cleaning (Method.on queue put (if isView then ChannelBuffer.appendView data
        else ChannelBuffer.append data))
        (release data.length) : Call Transition) := by
  intro exchange ledger solvent
  rcases isQueue.append_cases solvent data isView with ⟨error, run⟩ |
    ⟨next, after, transition, run, balanced⟩
  · rw [run]
    exact ⟨ledger, solvent, rfl, rfl⟩
  · rw [run]
    exact ⟨after, balanced⟩

/-- Read, and release what was read. -/
theorem take_balances (isQueue : IsQueue queue put) (limit : Int) :
    Evolves Balances (do
      let before ← Method.get
      let data ← Method.on queue put (ChannelBuffer.read limit)
      release data.length
      let after ← Method.get
      return (data, (queue before).backpressured && !(queue after).backpressured) :
        Call (Bytes × Bool)) := by
  intro exchange ledger solvent
  obtain ⟨next, data, read, nextSound, queued, same⟩ :=
    ChannelBuffer.read_sound (isQueue.sound exchange ledger solvent) limit
  have part := isQueue.le_held exchange
  have covered := solvent.covered
  have within := solvent.within
  have released : release data.length (put next exchange) = _ :=
    release_eq ((isQueue.put_accounting next exchange).trans solvent.accounting) (by omega)
  obtain ⟨after, moved⟩ :=
    isQueue.moved exchange ledger next (ledger.buffered - data.length) solvent nextSound same
    (by omega) (by omega)
  simp only [bind_run, get_run, Method.on, read, released]
  exact ⟨_, after, rfl, moved⟩

end IsQueue

theorem appendUpstream_balances (data : Bytes) (isView : Bool) :
    Evolves Balances (appendUpstream data isView) :=
  upstream_isQueue.append_balances data isView

theorem appendDownstream_balances (data : Bytes) : Evolves Balances (appendDownstream data) := by
  refine .ite (.pure _) ?_
  exact downstream_isQueue.append_balances data false

theorem takeUpstream_balances (limit : Int) : Evolves Balances (takeUpstream limit) :=
  upstream_isQueue.take_balances limit

theorem takeDownstream_balances (limit : Int) : Evolves Balances (takeDownstream limit) :=
  downstream_isQueue.take_balances limit

theorem onCodec_balances {α : Type} (call : Method Http1UpstreamCodec Exn α) :
    Evolves Balances (onCodec call) :=
  fun _ => balances_of_eq rfl rfl rfl rfl

theorem feedRequestBody_balances (data : Bytes) (isView : Bool) :
    Evolves Balances (feedRequestBody data isView) := by
  refine .bind .get fun exchange => .ite (.raise _) (.ite (.lift _) ?_)
  refine .bind (.modify fun _ => balances_of_eq rfl rfl rfl rfl) fun _ => ?_
  exact .ite (appendUpstream_balances _ _) (appendUpstream_balances _ _)

theorem finishRequest_balances (trailers : List Header) : Evolves Balances (finishRequest trailers) := by
  refine .bind .get fun exchange => .ite (.pure _) (.ite (.lift _) ?_)
  refine .bind (.modify fun _ => balances_of_eq rfl rfl rfl rfl) fun _ => .ite (.pure _) ?_
  exact .bind (.lift _) fun lines => appendUpstream_balances _ _

theorem forwardEvent_balances (transition : Transition) (event : UpstreamEvent) :
    Evolves Balances (forwardEvent transition event) := by
  have grows (data : Bytes) : Evolves Balances
      (do let grown ← appendDownstream data; return grown.or transition : Call Transition) :=
    .bind (appendDownstream_balances data) fun _ => .pure _
  cases event with
  | responseHead head =>
    refine .bind .get fun exchange => .ite (.ite (.pure _) (.bind (.lift _) fun data => grows data)) ?_
    refine .bind (.modify fun _ => balances_of_eq rfl rfl rfl rfl) fun _ => .bind .get fun _ => ?_
    exact .bind (.lift _) fun data => grows data
  | responseBody data => exact .bind .get fun exchange => grows _
  | responseEnd trailers =>
    have ends : Evolves Balances (endDownstream trailers transition) :=
      .bind .get fun exchange => .ite (.bind (.lift _) fun data => grows data) (.pure _)
    exact .bind ends fun _ => .bind (.modify fun _ => balances_of_eq rfl rfl rfl rfl) fun _ => .pure _

theorem forwardEvents_balances (events : List UpstreamEvent) : Evolves Balances (forwardEvents events) :=
  .foldlM forwardEvent_balances events _

theorem feedUpstream_balances (data : Bytes) : Evolves Balances (feedUpstream data) :=
  .bind .get fun _ => .ite (.raise _) (.bind (onCodec_balances _) forwardEvents_balances)

theorem upstreamEof_balances :
    Evolves Balances upstreamEof := .bind (onCodec_balances _) forwardEvents_balances

/-- A live exchange gives back all that it holds. -/
theorem cancel_live {exchange : ProxyExchange} {ledger : Ledger} (solvent : exchange.Solvent ledger)
    (live : exchange.cancelled = false) (reason : String) :
    ∃ next after, cancel reason exchange = (next, .ok ()) ∧
      next.Solvent after ∧ after.maxBuffered = ledger.maxBuffered ∧
        after.buffered = ledger.buffered - exchange.held ∧ next.held = 0 ∧ next.cancelled = true := by
  obtain ⟨upstream, upEmpty, upClosed⟩ := solvent.upstream.close
  obtain ⟨downstream, downEmpty, downClosed⟩ := solvent.downstream.close
  have within := solvent.within
  let closed : ProxyExchange := { exchange with
    cancelled := true
    cancelReason := reason
    toUpstream := exchange.toUpstream.close
    toDownstream := exchange.toDownstream.close }
  have empty : closed.held = 0 := by simp only [held, closed, upEmpty, downEmpty]
  have account : closed.accounting = some ledger := solvent.accounting
  have released := release_eq account solvent.covered
  refine ⟨closed.withBuffered ledger (ledger.buffered - exchange.held),
    { ledger with buffered := ledger.buffered - exchange.held }, ?_, ?_, rfl, rfl, empty, rfl⟩
  · unfold cancel
    simp only [bind_run, get_run, live, Bool.false_eq_true, if_false, modify_run]
    exact released
  · refine ⟨rfl, upstream, downstream, ?_, by simp only; omega, fun _ => ⟨upClosed, downClosed⟩⟩
    exact empty.trans_le (Nat.zero_le _)

theorem cancel_again {exchange : ProxyExchange} (isOver : exchange.cancelled = true) (reason : String) :
    cancel reason exchange = (exchange, .ok ()) := by
  unfold cancel
  simp only [bind_run, get_run, isOver, if_true, pure_run]

theorem cancel_balances (reason : String) : Evolves Balances (cancel reason) := by
  intro exchange ledger solvent
  cases live : exchange.cancelled with
  | true =>
    rw [cancel_again live]
    exact ⟨ledger, solvent, rfl, rfl⟩
  | false =>
    obtain ⟨next, after, run, nextSolvent, limit, less, empty, -⟩ := cancel_live solvent live reason
    have covered := solvent.covered
    rw [run]
    exact ⟨after, nextSolvent, limit, by simp only; omega⟩

section Construction
variable {request : ExchangeRequest} {limits : ExchangeLimits} {ledger : Ledger}

theorem unsent_solvent {low high : Int} {buffer : ChannelBuffer}
    (within : (ledger.buffered : Int) ≤ ledger.maxBuffered)
    (made : ChannelBuffer.init limits.segmentBytes low high limits.maxBufferedBytes = .ok buffer) :
    (unsent request (some ledger) buffer).Solvent ledger ∧
    (unsent request (some ledger) buffer).held = 0 := by
  obtain ⟨valid, empty⟩ := ChannelBuffer.init_wellFormed made
  have queued : buffer.queuedBytes = 0 := by rw [valid.queued, empty, List.length_nil]
  have sound : buffer.Sound := ⟨valid, fun _ => queued⟩
  have nothing : (unsent request (some ledger) buffer).held = 0 := by simp [held, unsent, queued]
  exact ⟨⟨rfl, sound, sound, nothing ▸ Nat.zero_le _, within, fun isOver => by cases isOver⟩, nothing⟩

/-- A new exchange has its request head queued and accounted for. -/
theorem init_solvent {exchange : ProxyExchange} (within : (ledger.buffered : Int) ≤ ledger.maxBuffered)
    (start : init request limits (some ledger) = .ok exchange) :
    ∃ after, exchange.Solvent after ∧ after.maxBuffered = ledger.maxBuffered ∧
      after.buffered = ledger.buffered + exchange.held := by
  obtain ⟨low, high, buffer, head, transition, made, -, appended⟩ := init_eq_ok start
  obtain ⟨solvent, nothing⟩ := @unsent_solvent request limits ledger low high buffer within made
  obtain ⟨after, solvent, limit, moved⟩ := appendUpstream_balances head false _ ledger solvent
  rw [appended] at solvent moved
  rw [nothing] at moved
  exact ⟨after, solvent, limit, moved⟩

/-- A constructor that raises has given back what it reserved. -/
theorem construct_raises {accounting : Option Ledger} {error : Exn}
    (within : (ledger.buffered : Int) ≤ ledger.maxBuffered)
    (raises : construct request limits (some ledger) = (accounting, .error error)) :
    accounting = some ledger := by
  unfold construct at raises
  split at raises
  · cases raises
    rfl
  · rename_i exchange head opened
    obtain ⟨low, high, buffer, made, rfl, -⟩ := opening_eq_ok opened
    obtain ⟨solvent, -⟩ := @unsent_solvent request limits ledger low high buffer within made
    rcases upstream_isQueue.append_cases solvent head false with ⟨refusal, run⟩ |
      ⟨next, after, transition, run, -⟩
    · have run : appendUpstream head false (unsent request (some ledger) buffer) =
          (unsent request (some ledger) buffer, .error refusal) := run
      rw [run] at raises
      cases raises
      rfl
    · have run : appendUpstream head false (unsent request (some ledger) buffer) =
          (next, .ok transition) := run
      rw [run] at raises
      cases raises

end Construction
end ProxyExchange
end PccGateway
