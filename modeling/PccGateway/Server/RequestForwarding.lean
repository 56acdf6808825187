import PccGateway.Http1.Retention
import PccGateway.Http1.WholeMessage
import PccGateway.Proxy.ExchangeRun
import PccGateway.Server.Connection

namespace PccGateway
namespace ProxyExchange

/-- What can be called on an exchange to write its request. -/
inductive Writing where
  | body (data : Bytes) (isView : Bool)
  | releasedView
  | finish (trailers : List Header)

/-- `feed_request_body` of a view that was released: it has length 0, so it is not framed, and `append_view`
cannot slice it. -/
def feedReleasedView : Call Transition := do
  let exchange ← Method.get
  if exchange.cancelled ∨ exchange.requestFinished then
    Method.raise (.runtime "proxy request is not writable")
  else if exchange.chunkedRequest = false ∧ exchange.contentLength < exchange.requestSent then
    Method.lift (raiseProxy "request-overflow" "proxy request exceeds declared length")
  else if exchange.toUpstream.closed then
    Method.raise (.bufferClosed "cannot append to a closed channel buffer")
  else if exchange.toUpstream.maxBytes < exchange.toUpstream.queuedBytes then
    Method.raise (.bufferLimit "channel buffer byte limit exceeded")
  else Method.raise (.bufferReleased "cannot slice a released view")

def Writing.call : Writing → Call Transition
  | .body data isView => feedRequestBody data isView
  | .releasedView => feedReleasedView
  | .finish trailers => finishRequest trailers

def canRetry (exchange : ProxyExchange) (policy : RetryPolicy) (attempt : Nat) (failure : Failure) : Bool :=
  policy.allows exchange.method attempt exchange.responseCommitted failure (exchange.requestSent == 0)

/-- What a failed write must not change: the progress of the request, both queues with their backpressure,
and the accounting. -/
def books (exchange : ProxyExchange) : Nat × Bool × ChannelBuffer × ChannelBuffer × Option Ledger :=
  (exchange.requestSent, exchange.requestFinished, exchange.toUpstream, exchange.toDownstream,
    exchange.accounting)

/-- The accounting and the queue towards the upstream take `count` more bytes. -/
def Room (exchange : ProxyExchange) (count : Nat) : Prop :=
  (∀ ledger ∈ exchange.accounting, count = 0 ∨ ((ledger.buffered + count : Nat) : Int) ≤
    ledger.maxBuffered) ∧
    exchange.toUpstream.closed = false ∧ exchange.toUpstream.queuedBytes + count ≤
      exchange.toUpstream.maxBytes

/-- The number of bytes that a piece of body takes on the wire. -/
def framedLength (chunked : Bool) (data : Bytes) : Nat :=
  if chunked ∧ data ≠ [] then (hexadecimal data.length).length + data.length + 4 else data.length

/-- A trailer that can be written. -/
def TrailerAllowed (trailer : Header) : Prop :=
  lower trailer.1 ∉ ["content-length".toList, "transfer-encoding".toList, "host".toList] ∧
    (∀ c ∈ lower trailer.1, c.toNat ≤ 127) ∧ ∀ c ∈ trailer.2, c.toNat ≤ 255

/-- The number of bytes of the last chunk with its trailers. -/
def endingLength (trailers : List Header) : Nat :=
  (trailers.map fun trailer => trailer.1.length + trailer.2.length + 4).sum + 5

/-- The writes that are refused before they change anything, have nothing to count, or find room. -/
def Writing.Safe (exchange : ProxyExchange) : Writing → Prop
  | .body data _ => data = [] ∨ exchange.cancelled ∨ exchange.requestFinished ∨
      exchange.chunkedRequest = false ∧ exchange.contentLength <
        (exchange.requestSent + data.length : Nat) ∨
      exchange.Room (framedLength exchange.chunkedRequest data)
  | .releasedView => True
  | .finish trailers => exchange.requestFinished ∨ exchange.chunkedRequest = false ∨
      (∀ trailer ∈ sanitizeHopByHop trailers, TrailerAllowed trailer) ∧
        exchange.Room (endingLength (sanitizeHopByHop trailers))

section Append
variable {exchange : ProxyExchange} {data : Bytes}

theorem append_room {buffer : ChannelBuffer} (opened : buffer.closed = false)
    (fits : buffer.queuedBytes + data.length ≤ buffer.maxBytes) (isView : Bool) :
    ∃ next transition, (if isView then ChannelBuffer.appendView data else ChannelBuffer.append data)
      buffer = (next, .ok transition) := by
  have grows (buffer : ChannelBuffer) :
      ∃ next transition, buffer.transitionAfterGrowth = (next, .ok transition) := by
    unfold ChannelBuffer.transitionAfterGrowth
    split <;> exact ⟨_, _, rfl⟩
  cases isView
  · simp only [Bool.false_eq_true, if_false, ChannelBuffer.append, opened, Nat.not_lt.mpr fits]
    exact grows _
  · simp only [Bool.false_eq_true, if_false, if_true, ChannelBuffer.appendView, opened, Nat.not_lt.mpr fits]
    exact grows _

theorem append_no_room {buffer : ChannelBuffer}
    (full : buffer.closed = true ∨ buffer.maxBytes < buffer.queuedBytes + data.length) (isView : Bool) :
    ∃ error, (if isView then ChannelBuffer.appendView data else ChannelBuffer.append data) buffer =
        (buffer, .error error) ∧
      (buffer.closed = false → error = .bufferLimit "channel buffer byte limit exceeded") := by
  by_cases closed : buffer.closed = true
  · cases isView <;> exact ⟨_, if_pos closed, fun opened => absurd (opened.symm.trans closed) (by simp)⟩
  · have isOver := full.resolve_left closed
    cases isView <;> exact ⟨_, (if_neg closed).trans (if_pos isOver), fun _ => rfl⟩

/-- A reservation within the budget succeeds, and a release of as much undoes it. -/
theorem reserve_budget {count : Nat} (budget : ∀ ledger ∈ exchange.accounting,
      count = 0 ∨ ((ledger.buffered + count : Nat) : Int) ≤ ledger.maxBuffered) :
    ∃ after, reserve count exchange = (after, .ok ()) ∧ after.toUpstream = exchange.toUpstream ∧
      release count after = (exchange, .ok ()) := by
  unfold reserve release
  cases accounting : exchange.accounting with
  | none => exact ⟨exchange, rfl, rfl, by simp only [accounting]⟩
  | some ledger =>
    by_cases zero : count = 0
    · exact ⟨exchange, by simp only [zero, if_true], rfl, by simp only [accounting, zero, if_true]⟩
    · have within := (budget ledger accounting).resolve_left zero
      refine ⟨{ exchange with accounting := some { ledger with buffered := ledger.buffered +
        count } }, ?_, rfl, ?_⟩
      · simp only [zero, if_false, Int.not_lt.mpr within]
      · have covered : ¬ ledger.buffered + count < count := by omega
        simp only [zero, if_false, covered, Nat.add_sub_cancel]
        rw [← accounting]

theorem reserve_overload {count : Nat} (overload : ¬ ∀ ledger ∈ exchange.accounting,
      count = 0 ∨ ((ledger.buffered + count : Nat) : Int) ≤ ledger.maxBuffered) :
    ∃ error, reserve count exchange = (exchange, .error error) := by
  push Not at overload
  obtain ⟨ledger, accounting, zero, isOver⟩ := overload
  have accounting : exchange.accounting = some ledger := accounting
  unfold reserve
  simp only [accounting]
  rw [if_neg zero, if_pos (by omega)]
  exact ⟨_, rfl⟩

/-- With room, an append towards the upstream returns. -/
theorem appendUpstream_room (room : exchange.Room data.length) (isView : Bool) :
    ∃ next transition, appendUpstream data isView exchange = (next, .ok transition) := by
  obtain ⟨budget, opened, fits⟩ := room
  obtain ⟨after, run, same, -⟩ := reserve_budget budget
  rw [← same] at opened fits
  obtain ⟨grown, transition, appended⟩ := append_room opened fits isView
  refine ⟨{ after with toUpstream := grown }, transition, ?_⟩
  unfold appendUpstream
  rw [Method.bind_run, run]
  exact Method.cleaning_eq_ok_iff.mpr (Method.on_eq_ok_iff.mpr ⟨grown, appended, rfl⟩)

/-- Without room it raises, and gives back what it reserved. -/
theorem appendUpstream_no_room (full : ¬ exchange.Room data.length) (isView : Bool) :
    ∃ error, appendUpstream data isView exchange = (exchange, .error error) ∧
      ((∀ ledger ∈ exchange.accounting,
          data.length = 0 ∨ ((ledger.buffered + data.length : Nat) : Int) ≤ ledger.maxBuffered) →
        exchange.toUpstream.closed = false →
          error = .bufferLimit "channel buffer byte limit exceeded") := by
  unfold appendUpstream
  rw [Method.bind_run]
  by_cases budget : ∀ ledger ∈ exchange.accounting,
      data.length = 0 ∨ ((ledger.buffered + data.length : Nat) : Int) ≤ ledger.maxBuffered
  · have isOver : exchange.toUpstream.closed = true ∨
        exchange.toUpstream.maxBytes < exchange.toUpstream.queuedBytes + data.length := by
      cases closed : exchange.toUpstream.closed with
      | true => exact .inl rfl
      | false => exact .inr (Nat.lt_of_not_le fun fits => full ⟨budget, closed, fits⟩)
    obtain ⟨after, run, same, undone⟩ := reserve_budget budget
    rw [← same] at isOver
    obtain ⟨error, refused, which⟩ := append_no_room isOver isView
    refine ⟨error, ?_, fun _ opened => which (same ▸ opened)⟩
    rw [run]
    simp only [Method.cleaning, onUpstream, Method.on, refused, undone]
  · obtain ⟨error, run⟩ := reserve_overload budget
    rw [run]
    exact ⟨error, rfl, fun within => absurd within budget⟩

end Append

theorem framed_length (data : Bytes) :
    ((hexadecimal data.length).map charByte ++ crlf ++ data ++ crlf).length =
      (hexadecimal data.length).length + data.length + 4 := by
  simp only [List.length_append, List.length_map, crlf, List.length_cons, List.length_nil]
  omega

/-- `feed_request_body` past its checks: what it counts and what it appends. -/
theorem feedRequestBody_writable {exchange : ProxyExchange} {data : Bytes} (isView : Bool)
    (live : exchange.cancelled = false) (going : exchange.requestFinished = false)
    (within : ¬ (exchange.chunkedRequest = false ∧
      exchange.contentLength < (exchange.requestSent + data.length : Nat))) :
    ∃ framed view, framed.length = framedLength exchange.chunkedRequest data ∧
      feedRequestBody data isView exchange =
        appendUpstream framed view { exchange with requestSent := exchange.requestSent + data.length } := by
  have writable : ¬ (exchange.cancelled = true ∨ exchange.requestFinished = true) := by simp [live, going]
  unfold feedRequestBody framedLength
  simp only [Method.bind_run, Method.get_run]
  rw [if_neg writable, if_neg within]
  by_cases chunked : exchange.chunkedRequest = true ∧ data ≠ []
  · rw [if_pos chunked, if_pos chunked]
    exact ⟨_, false, framed_length data, rfl⟩
  · rw [if_neg chunked, if_neg chunked]
    exact ⟨data, isView, rfl, rfl⟩

theorem feedRequestBody_refused {exchange : ProxyExchange} {data : Bytes} (isView : Bool)
    (refused : exchange.cancelled ∨ exchange.requestFinished ∨
      exchange.chunkedRequest = false ∧ exchange.contentLength <
        (exchange.requestSent + data.length : Nat)) :
    (∃ message, feedRequestBody data isView exchange = (exchange, .error (.runtime message))) ∨
      ∃ code message, feedRequestBody data isView exchange =
        (exchange, .error (.proxyProtocol code message)) := by
  unfold feedRequestBody
  simp only [Method.bind_run, Method.get_run]
  by_cases unwritable : exchange.cancelled = true ∨ exchange.requestFinished = true
  · rw [if_pos unwritable]
    exact .inl ⟨_, rfl⟩
  · have isOver := (or_assoc.mpr refused).resolve_left unwritable
    rw [if_neg unwritable, if_pos isOver]
    exact .inr ⟨_, _, rfl⟩

theorem requestTrailers_allowed {trailers : List Header}
    (allowed : ∀ trailer ∈ trailers, TrailerAllowed trailer) :
    ∃ lines, requestTrailers trailers = .ok lines ∧ lines.length + 5 = endingLength trailers := by
  induction trailers with
  | nil => exact ⟨[], rfl, rfl⟩
  | cons trailer rest ih =>
    obtain ⟨name, value⟩ := trailer
    obtain ⟨free, nameAscii, valueLatin⟩ := allowed (name, value) (List.mem_cons_self ..)
    obtain ⟨lines, run, length⟩ := ih fun other member => allowed other (List.mem_cons_of_mem _ member)
    have nameRun : encoded (encodeAscii (lower name)) = .ok ((lower name).map charByte) := by
      rw [encodeAscii, if_pos (by simpa using nameAscii)]
      rfl
    have valueRun : encoded (encodeLatin1 value) = .ok (value.map charByte) := by
      rw [encodeLatin1, if_pos (by simpa using valueLatin)]
      rfl
    refine ⟨fieldLine ((lower name).map charByte) (value.map charByte) ++ crlf ++ lines, ?_, ?_⟩
    · unfold requestTrailers
      rw [if_neg free, nameRun, valueRun, run]
      rfl
    · simp only [endingLength, List.map_cons, List.sum_cons] at length ⊢
      have separator : (ascii ": ").length = 2 := rfl
      simp only [fieldLine, crlf, lower, separator, List.length_append, List.length_map,
        List.length_cons, List.length_nil]
      omega

theorem requestTrailers_forbidden {trailers : List Header}
    (forbidden : ¬ ∀ trailer ∈ trailers, TrailerAllowed trailer) :
    ∃ error, requestTrailers trailers = .error error := by
  cases run : requestTrailers trailers with
  | error error => exact ⟨error, rfl⟩
  | ok lines =>
    refine absurd ?_ forbidden
    clear forbidden
    induction trailers generalizing lines with
    | nil => simp
    | cons trailer rest ih =>
      obtain ⟨name, value⟩ := trailer
      unfold requestTrailers at run
      split at run
      · cases run
      · rename_i free
        obtain ⟨nameBytes, nameRun, run⟩ := bind_eq_ok.mp run
        obtain ⟨valueBytes, valueRun, run⟩ := bind_eq_ok.mp run
        obtain ⟨more, restRun, -⟩ := bind_eq_ok.mp run
        rw [List.forall_mem_cons]
        refine ⟨⟨free, ?_, ?_⟩, ih _ restRun⟩
        · unfold encoded encodeAscii at nameRun
          split at nameRun
          · rename_i found
            split at found
            · rename_i all
              simpa using all
            · cases found
          · cases nameRun
        · unfold encoded encodeLatin1 at valueRun
          split at valueRun
          · rename_i found
            split at found
            · rename_i all
              simpa using all
            · cases found
          · cases valueRun

section Atomicity
variable {exchange : ProxyExchange}

/-- A write that raises leaves the books as they were. -/
def Atomic (call : Call Transition) (exchange : ProxyExchange) : Prop :=
  ∀ error, (call exchange).2 = .error error → (call exchange).1.books = exchange.books

theorem not_atomic {call : Call Transition} {next : ProxyExchange} {error : Exn}
    (run : call exchange = (next, .error error))
    (moved : next.books ≠ exchange.books) : ¬ Atomic call exchange := by
  intro atomic
  have same := atomic error (by rw [run])
  rw [run] at same
  exact moved same

theorem feedReleasedView_still : (feedReleasedView exchange).1 = exchange := by
  unfold feedReleasedView
  simp only [Method.bind_run, Method.get_run]
  repeat' split
  all_goals rfl

theorem feedRequestBody_still (data : Bytes) (isView : Bool)
    (safe : (Writing.body data isView).Safe exchange)
    {error : Exn} (raised : (feedRequestBody data isView exchange).2 = .error error) :
    (feedRequestBody data isView exchange).1 = exchange := by
  by_cases refused : exchange.cancelled ∨ exchange.requestFinished ∨
      exchange.chunkedRequest = false ∧ exchange.contentLength < (exchange.requestSent + data.length : Nat)
  · rcases feedRequestBody_refused isView refused with ⟨_, run⟩ | ⟨_, _, run⟩ <;> rw [run]
  · push Not at refused
    obtain ⟨live, going, within⟩ := refused
    obtain ⟨framed, view, length, run⟩ := @feedRequestBody_writable _ data isView (by simpa using live)
      (by simpa using going) fun isOver => absurd isOver.2 (by have := within isOver.1; omega)
    rw [run] at raised ⊢
    by_cases room : exchange.Room framed.length
    · obtain ⟨next, transition, returned⟩ :=
        @appendUpstream_room { exchange with requestSent := exchange.requestSent + data.length }
          framed room view
      rw [returned] at raised
      cases raised
    · obtain ⟨_, refused, -⟩ :=
        @appendUpstream_no_room { exchange with requestSent := exchange.requestSent + data.length }
          framed room view
      rw [refused]
      rcases safe with rfl | isOver | isOver | isOver | found
      · rfl
      · exact absurd isOver live
      · exact absurd isOver going
      · have := within isOver.1
        exact absurd isOver.2 (by omega)
      · exact absurd (length ▸ found) room

theorem ending_length {trailers : List Header} {lines : Bytes}
    (length : lines.length + 5 = endingLength trailers) :
    (ascii "0" ++ crlf ++ lines ++ crlf).length = endingLength trailers := by
  have zero : (ascii "0").length = 1 := rfl
  rw [← length]
  simp [crlf, zero]
  omega

theorem finishRequest_still (trailers : List Header) (safe : (Writing.finish trailers).Safe exchange)
    {error : Exn} (raised : (finishRequest trailers exchange).2 = .error error) :
    (finishRequest trailers exchange).1 = exchange := by
  unfold finishRequest at raised ⊢
  simp only [Method.bind_run, Method.get_run] at raised ⊢
  split
  · rfl
  · rename_i going
    rw [if_neg going] at raised
    split
    · rfl
    · rename_i exact_
      rw [if_neg exact_] at raised
      by_cases chunked : exchange.chunkedRequest = false
      · rw [if_pos chunked] at raised
        cases raised
      · rw [if_neg chunked] at raised ⊢
        obtain ⟨allowed, room⟩ := (safe.resolve_left going).resolve_left chunked
        obtain ⟨lines, run, length⟩ := requestTrailers_allowed allowed
        obtain ⟨next, transition, returned⟩ := @appendUpstream_room { exchange with
          requestFinished := true }
          (ascii "0" ++ crlf ++ lines ++ crlf) (by rw [ending_length length]; exact room) false
        simp only [Method.modify_run, Method.lift_run, run, Method.bind_run, returned] at raised
        cases raised

/-- A body write that is not safe is counted although nothing of it is queued. -/
theorem feedRequestBody_counted (data : Bytes) (isView : Bool)
    (unsafe_ : ¬ (Writing.body data isView).Safe exchange) :
    ¬ Atomic (feedRequestBody data isView) exchange := by
  simp only [Writing.Safe, not_or] at unsafe_
  obtain ⟨filled, live, going, within, full⟩ := unsafe_
  obtain ⟨framed, view, length, run⟩ := @feedRequestBody_writable _ data isView (by simpa using live)
    (by simpa using going) within
  rw [← length] at full
  obtain ⟨error, refused, -⟩ :=
    @appendUpstream_no_room { exchange with requestSent := exchange.requestSent + data.length }
      framed full view
  refine not_atomic (run.trans refused) fun same => filled ?_
  have sent : exchange.requestSent + data.length = exchange.requestSent := congrArg Prod.fst same
  exact List.eq_nil_of_length_eq_zero (by omega)

/-- An end that is not safe is recorded although nothing of it is queued, or it came too early. -/
theorem finishRequest_recorded (trailers : List Header)
    (unsafe_ : ¬ (Writing.finish trailers).Safe exchange) :
    ¬ Atomic (finishRequest trailers) exchange := by
  simp only [Writing.Safe, not_or, not_and_or] at unsafe_
  obtain ⟨going, chunked, bad⟩ := unsafe_
  have fixed : ¬ (exchange.chunkedRequest = false ∧ (exchange.requestSent : Int) ≠
      exchange.contentLength) :=
    fun other => chunked other.1
  have raised : ∃ error, finishRequest trailers exchange =
      ({ exchange with requestFinished := true }, .error error) := by
    unfold finishRequest
    simp only [Method.bind_run, Method.get_run]
    rw [if_neg going, if_neg fixed, if_neg chunked]
    by_cases allowed : ∀ trailer ∈ sanitizeHopByHop trailers, TrailerAllowed trailer
    · obtain ⟨lines, run, length⟩ := requestTrailers_allowed allowed
      have full := bad.resolve_left (not_not.mpr allowed)
      rw [← ending_length length] at full
      obtain ⟨error, refused, -⟩ := @appendUpstream_no_room { exchange with requestFinished := true }
        (ascii "0" ++ crlf ++ lines ++ crlf) full false
      refine ⟨error, ?_⟩
      simp only [Method.modify_run, Method.bind_run, Method.lift_run, run, refused]
    · obtain ⟨error, run⟩ := requestTrailers_forbidden allowed
      refine ⟨error, ?_⟩
      simp only [Method.modify_run, Method.bind_run, Method.lift_run, run]
  obtain ⟨error, run⟩ := raised
  refine not_atomic run fun same => going ?_
  exact (congrArg (·.2.1) same).symm

/-- A write that raises leaves the books as they were exactly when it is safe, and then the whole
exchange is as it was. The exchange is in any state and the writing any of those that the gateway
makes. `Safe` is a condition on the arguments and on the state in front of the call, so that a
caller can check it. -/
theorem write_atomic_iff (exchange : ProxyExchange) (writing : Writing) :
    (Atomic writing.call exchange ↔ writing.Safe exchange) ∧
      (writing.Safe exchange → ∀ error, (writing.call exchange).2 = .error error →
        (writing.call exchange).1 = exchange) := by
  have still (safe : writing.Safe exchange) (error : Exn)
    (raised : (writing.call exchange).2 = .error error) :
      (writing.call exchange).1 = exchange := by
    cases writing with
    | body data isView => exact feedRequestBody_still data isView safe raised
    | releasedView => exact feedReleasedView_still
    | finish trailers => exact finishRequest_still trailers safe raised
  refine ⟨⟨fun atomic => ?_, fun safe error raised => by rw [still safe error raised]⟩, still⟩
  by_contra unsafe_
  cases writing with
  | body data isView => exact feedRequestBody_counted data isView unsafe_ atomic
  | releasedView => exact unsafe_ trivial
  | finish trailers => exact finishRequest_recorded trailers unsafe_ atomic

end Atomicity

/-- An upload of 80 bytes through an exchange that buffers 160. -/
def narrowUpload : Except Exn ProxyExchange :=
  init {
      method := "GET".toList, target := "/".toList, headers := [], upstreamAuthority := "u".toList
      clientIp := "c".toList, scheme := "s".toList, originalHost := "a".toList, contentLength := 80 }
    { maxBufferedBytes := 160 } none

theorem narrowUpload_counted : ∃ exchange, narrowUpload = .ok exchange ∧
    (feedRequestBody (List.replicate 80 0) false exchange).2 =
      .error (.bufferLimit "channel buffer byte limit exceeded") ∧
    ¬ Atomic (Writing.body (List.replicate 80 0) false).call exchange ∧
    exchange.canRetry { attempts := 2 } 1 .resetBeforeHead = true ∧
    (feedRequestBody (List.replicate 80 0) false exchange).1.canRetry { attempts := 2 } 1
    .resetBeforeHead = false := by
  have observed : (narrowUpload.toOption.map fun exchange =>
      ((feedRequestBody (List.replicate 80 0) false exchange).2,
        (feedRequestBody (List.replicate 80 0) false exchange).1.requestSent, exchange.requestSent,
        exchange.canRetry { attempts := 2 } 1 .resetBeforeHead,
        (feedRequestBody (List.replicate 80 0) false exchange).1.canRetry { attempts := 2 } 1
          .resetBeforeHead)) =
      some (.error (.bufferLimit "channel buffer byte limit exceeded"), 80, 0, true, false) := by
    decide +kernel
  cases start : narrowUpload with
  | error error =>
    rw [start] at observed
    cases observed
  | ok exchange =>
    rw [start] at observed
    simp only [Except.toOption, Option.map_some, Option.some.injEq, Prod.mk.injEq] at observed
    obtain ⟨raised, counted, fresh, before, after⟩ := observed
    refine ⟨exchange, rfl, raised, fun atomic => ?_, before, after⟩
    have same : (feedRequestBody (List.replicate 80 0) false exchange).1.requestSent =
        exchange.requestSent :=
      congrArg Prod.fst (atomic _ raised)
    rw [counted, fresh] at same
    cases same

/-- The states of an exchange, whatever was done with it and whether it raised or not. -/
inductive Reached (request : ExchangeRequest) (limits : ExchangeLimits) (accounting : Option Ledger) :
    ProxyExchange → Prop
  | start {exchange : ProxyExchange} : init request limits accounting = .ok exchange →
      Reached request limits accounting exchange
  | perform {exchange : ProxyExchange} (op : Op) : Reached request limits accounting exchange →
      Reached request limits accounting (op.perform exchange).1
  | cancel {exchange : ProxyExchange} (reason : String) : Reached request limits accounting exchange →
      Reached request limits accounting (ProxyExchange.cancel reason exchange).1

/-- What only the constructor and `cancel` decide. -/
def terms (exchange : ProxyExchange) : Int × Bool × Nat × Bool × Bool :=
  (exchange.contentLength, exchange.chunkedRequest, exchange.toUpstream.maxBytes,
    exchange.toUpstream.closed, exchange.cancelled)

section Terms

theorem onUpstream_terms {α : Type} {call : Method ChannelBuffer Exn α}
    (leaves : call.Leaves ChannelBuffer.settings) :
    (onUpstream call).Leaves terms := by
  intro exchange
  have same := leaves exchange.toUpstream
  simp only [ChannelBuffer.settings, Prod.mk.injEq] at same
  simp only [terms, onUpstream, Method.on, same]

theorem onDownstream_terms {α : Type} (call : Method ChannelBuffer Exn α) :
    (onDownstream call).Leaves terms := by
  apply Method.Leaves.on
  exact fun _ _ => rfl

theorem onCodec_terms {α : Type} (call : Method Http1UpstreamCodec Exn α) :
    (onCodec call).Leaves terms := by
  apply Method.Leaves.on
  exact fun _ _ => rfl

theorem appendUpstream_terms (data : Bytes) (isView : Bool) :
    (appendUpstream data isView).Leaves terms := by
  have appends : (if isView then ChannelBuffer.appendView data else ChannelBuffer.append data).Leaves
      ChannelBuffer.settings :=
    .ite (ChannelBuffer.appendView_settings data) (ChannelBuffer.append_settings data)
  exact .bind (reserve_leaves (fun _ _ => rfl) _) fun _ =>
    .cleaning (onUpstream_terms appends) (release_leaves (fun _ _ => rfl) _)

theorem appendDownstream_terms (data : Bytes) : (appendDownstream data).Leaves terms :=
  .ite (.pure _) (.bind (reserve_leaves (fun _ _ => rfl) _) fun _ =>
    .cleaning (onDownstream_terms _) (release_leaves (fun _ _ => rfl) _))

theorem forwardEvent_terms (transition : Transition) (event : UpstreamEvent) :
    (forwardEvent transition event).Leaves terms := by
  have grows (data : Bytes) :
      (do let grown ← appendDownstream data; return grown.or transition : Call Transition).Leaves
      terms := .bind (appendDownstream_terms data) fun _ => .pure _
  cases event with
  | responseHead head =>
    refine .bind .get fun _ => .ite (.ite (.pure _) (.bind (.lift _) fun _ => grows _)) ?_
    exact .bind (.modify fun _ => rfl) fun _ => .bind .get fun _ => .bind (.lift _) fun _ => grows _
  | responseBody data => exact .bind .get fun _ => grows _
  | responseEnd trailers =>
    have ends : (endDownstream trailers transition).Leaves terms :=
      .bind .get fun _ => .ite (.bind (.lift _) fun _ => grows _) (.pure _)
    exact .bind ends fun _ => .bind (.modify fun _ => rfl) fun _ => .pure _

theorem Op.perform_terms (op : Op) : op.perform.Leaves terms := by
  cases op with
  | feedRequestBody payload isView =>
    exact .bind (.bind .get fun _ => .ite (.raise _) (.ite (.lift _) (.bind (.modify fun _ => rfl) fun _ =>
      .ite (appendUpstream_terms _ _) (appendUpstream_terms _ _)))) fun _ => .pure _
  | finishRequest trailers =>
    exact .bind (.bind .get fun _ => .ite (.pure _) (.ite (.lift _) (.bind (.modify fun _ => rfl) fun _ =>
      .ite (.pure _) (.bind (.lift _) fun _ => appendUpstream_terms _ _)))) fun _ => .pure _
  | takeUpstream limit =>
    exact .bind (.bind .get fun _ => .bind (onUpstream_terms (ChannelBuffer.read_settings limit)) fun _ =>
      .bind (release_leaves (fun _ _ => rfl) _) fun _ => .bind .get fun _ => .pure _) fun _ => .pure _
  | feedUpstream data =>
    exact .bind (.bind .get fun _ => .ite (.raise _) (.bind (onCodec_terms _) fun events =>
      .foldlM forwardEvent_terms events _)) fun _ => .pure _
  | upstreamEof =>
    exact .bind (.bind (onCodec_terms _) fun events => .foldlM forwardEvent_terms events _) fun _ => .pure _
  | takeDownstream limit =>
    exact .bind (.bind .get fun _ => .bind (onDownstream_terms _) fun _ =>
      .bind (release_leaves (fun _ _ => rfl) _) fun _ => .bind .get fun _ => .pure _) fun _ => .pure _
  | account ledger => exact .bind (.modify fun _ => rfl) fun _ => .pure _

end Terms

/-- The queue towards the upstream is open for as long as the exchange is not cancelled. -/
structure Reached.Terms (request : ExchangeRequest) (limits : ExchangeLimits)
    (exchange : ProxyExchange) : Prop where
  contentLength : exchange.contentLength = request.contentLength
  chunkedRequest : exchange.chunkedRequest = request.chunkedRequest
  maxBytes : (exchange.toUpstream.maxBytes : Int) = limits.maxBufferedBytes
  opened : exchange.cancelled = false → exchange.toUpstream.closed = false

theorem Reached.Terms.of_eq {request : ExchangeRequest} {limits : ExchangeLimits}
    {exchange next : ProxyExchange}
    (held : Reached.Terms request limits exchange) (same : next.terms = exchange.terms) :
    Reached.Terms request limits next := by
  simp only [terms, Prod.mk.injEq] at same
  obtain ⟨contentLength, chunkedRequest, maxBytes, closed, cancelled⟩ := same
  refine ⟨contentLength.trans held.contentLength, chunkedRequest.trans held.chunkedRequest, ?_,
    fun live => ?_⟩
  · rw [maxBytes, held.maxBytes]
  · rw [closed, held.opened (cancelled ▸ live)]

theorem ChannelBuffer.init_maxBytes {segmentSize lowWatermark highWatermark maxBytes : Int}
    {buffer : ChannelBuffer}
    (start : ChannelBuffer.init segmentSize lowWatermark highWatermark maxBytes = .ok buffer) :
    (buffer.maxBytes : Int) = maxBytes ∧ buffer.closed = false := by
  unfold ChannelBuffer.init at start
  split at start
  · cases start
  · split at start
    · cases start
    · split at start
      · cases start
      · cases start
        exact ⟨Int.toNat_of_nonneg (by omega), rfl⟩

theorem init_terms {request : ExchangeRequest} {limits : ExchangeLimits} {accounting : Option Ledger}
    {exchange : ProxyExchange} (start : init request limits accounting = .ok exchange) :
    Reached.Terms request limits exchange := by
  obtain ⟨low, high, buffer, head, transition, made, -, appended⟩ := init_eq_ok start
  have sized := ChannelBuffer.init_maxBytes made
  have queued := appendUpstream_terms head false (unsent request accounting buffer)
  rw [appended] at queued
  exact Reached.Terms.of_eq ⟨rfl, rfl, sized.1, fun _ => sized.2⟩ queued

theorem Reached.terms {request : ExchangeRequest} {limits : ExchangeLimits} {accounting : Option Ledger}
    {exchange : ProxyExchange} (reached : Reached request limits accounting exchange) :
    Reached.Terms request limits exchange := by
  induction reached with
  | start start => exact init_terms start
  | perform op _ held => exact held.of_eq (op.perform_terms _)
  | @cancel exchange reason _ held =>
    unfold ProxyExchange.cancel
    simp only [Method.bind_run, Method.get_run]
    split
    · exact held
    · have closed : Reached.Terms request limits { exchange with
          cancelled := true
          cancelReason := reason
          toUpstream := exchange.toUpstream.close
          toDownstream := exchange.toDownstream.close } := by
        refine ⟨held.contentLength, held.chunkedRequest, ?_, nofun⟩
        refine Eq.trans ?_ held.maxBytes
        simp only [ChannelBuffer.close]
        split <;> rfl
      exact closed.of_eq (release_leaves (fun _ _ => rfl) _ _)

end ProxyExchange

/-- The body chunks that a codec emits, each with the head of its request. -/
def emittedChunks : Option RequestHead → List Event → List (RequestHead × Bytes)
  | _, [] => []
  | _, .requestHead head :: events => emittedChunks (some head) events
  | some head, .bodyChunk data :: events => (head, data) :: emittedChunks (some head) events
  | none, .bodyChunk _ :: events => emittedChunks none events
  | _, .requestEnd _ :: events => emittedChunks none events

theorem emittedChunks_pieces (head : RequestHead) (pieces : List Bytes) (events : List Event) :
    emittedChunks (some head) (pieces.map .bodyChunk ++ events) =
      pieces.map (head, ·) ++ emittedChunks (some head) events := by
  induction pieces with
  | nil => rfl
  | cons piece pieces ih => simp [emittedChunks, ih]

/-- A chunk within what the limits allow for the framing of its request. -/
def ChunkWithin (limits : CodecLimits) (chunk : RequestHead × Bytes) : Prop :=
  (chunk.2.length : Int) ≤ if chunk.1.chunked then limits.maxChunkBytes else limits.maxBodyBytes

section Emitted
variable {limits : CodecLimits}

theorem fixed_within {block : Bytes} {head : RequestHead} {pieces : List Bytes}
    (headBlock : HeadBlock limits block head)
    (plain : head.chunked = false) (bound : (pieces.flatten.length : Int) ≤ head.contentLength)
    (filled : ∀ piece ∈ pieces, piece ≠ []) : ∀ chunk ∈ pieces.map (head, ·), ChunkWithin limits chunk := by
  intro chunk member
  obtain ⟨piece, listed, rfl⟩ := List.mem_map.mp member
  have shorter : piece.length ≤ pieces.flatten.length := (List.sublist_flatten_of_mem listed).length_le
  have positive := List.length_pos_iff.mpr (filled piece listed)
  have limit := parseRequestHead_contentLength_le headBlock.parsed (by omega)
  simp only [ChunkWithin, plain, Bool.false_eq_true, if_false]
  omega

theorem chunked_within {head : RequestHead} {chunks : List Chunk} (chunked : head.chunked = true)
    (valid : ∀ chunk ∈ chunks, chunk.Valid limits.maxChunkBytes) :
    ∀ chunk ∈ (chunks.map Chunk.data).map (head, ·), ChunkWithin limits chunk := by
  intro chunk member
  obtain ⟨data, listed, rfl⟩ := List.mem_map.mp member
  obtain ⟨chunk, inBody, rfl⟩ := List.mem_map.mp listed
  simp only [ChunkWithin, chunked, if_true]
  exact (valid chunk inBody).bound

theorem message_within {message : Message} (valid : message.Valid limits) (events : List Event) :
    ∃ chunks, emittedChunks none (message.events ++ events) = chunks ++ emittedChunks none events ∧
      ∀ chunk ∈ chunks, ChunkWithin limits chunk := by
  obtain ⟨block, head, body⟩ := message
  obtain ⟨headBlock, framed⟩ := valid
  cases framed with
  | @fixed pieces plain length filled =>
    refine ⟨_, ?_, fixed_within headBlock plain (Int.le_of_eq length) filled⟩
    simp only [Message.events, MessageBody.events, List.cons_append, emittedChunks, List.append_assoc,
      emittedChunks_pieces, List.nil_append]
  | @chunked body chunked bodyValid =>
    refine ⟨_, ?_, chunked_within chunked bodyValid.chunks⟩
    have pieces : (body.chunks.map fun chunk => Event.bodyChunk chunk.data) =
        (body.chunks.map Chunk.data).map .bodyChunk := by simp
    simp only [Message.events, MessageBody.events, pieces, List.cons_append, emittedChunks,
      List.append_assoc, emittedChunks_pieces, List.nil_append]

theorem partial_within {codec : Http1ServerCodec} {taken : Bytes} {past : List Event}
    (inProgress : Partial limits codec taken past) :
    ∀ chunk ∈ emittedChunks none past, ChunkWithin limits chunk := by
  have chunks (head : RequestHead) (chunks : List Chunk) (chunked : head.chunked = true)
      (valid : ∀ chunk ∈ chunks, chunk.Valid limits.maxChunkBytes) :
      ∀ chunk ∈ emittedChunks none (.requestHead head :: chunks.map fun chunk => .bodyChunk chunk.data),
        ChunkWithin limits chunk := by
    have all := emittedChunks_pieces head (chunks.map Chunk.data) []
    have pieces : (chunks.map Chunk.data).map Event.bodyChunk = chunks.map fun chunk =>
        .bodyChunk chunk.data := by simp
    rw [List.append_nil, pieces, emittedChunks, List.append_nil] at all
    rw [emittedChunks, all]
    exact chunked_within chunked valid
  cases inProgress with
  | idle => simp [emittedChunks]
  | @fixed block head pieces _ headBlock plain length positive filled =>
    have all := emittedChunks_pieces head pieces []
    simp only [List.append_nil, emittedChunks] at all
    simp only [emittedChunks, all]
    exact fixed_within headBlock plain (by omega) filled
  | chunkSize _ _ chunked valid => exact chunks _ _ chunked valid
  | chunkData _ _ chunked valid => exact chunks _ _ chunked valid
  | trailers _ _ chunked valid => exact chunks _ _ chunked valid

theorem emittedChunks_within {calls : List (Bytes × Int)} {codec : Http1ServerCodec} {events : List Event}
    (run : Http1ServerCodec.feedAll { limits := limits } calls = (codec, .ok events)) :
    ∀ chunk ∈ emittedChunks none events, ChunkWithin limits chunk := by
  have start : ∃ messages taken past, Decoded limits [] { limits := limits } [] messages taken past :=
    ⟨[], [], [], rfl, rfl, by simp, .idle rfl rfl rfl, rfl⟩
  obtain ⟨messages, taken, past, -, all, valid, inProgress, -⟩ := Decoded.feedAll start run
  rw [List.nil_append] at all
  subst all
  clear run
  induction messages with
  | nil => exact partial_within inProgress
  | cons message messages ih =>
    rw [List.map_cons, List.flatten_cons, List.append_assoc]
    obtain ⟨chunks, split, within⟩ := message_within (valid message (List.mem_cons_self ..))
      ((messages.map Message.events).flatten ++ past)
    rw [split, List.forall_mem_append]
    exact ⟨within, ih fun other member => valid other (List.mem_cons_of_mem _ member)⟩

end Emitted

theorem hexadecimal_length_mono {n m : Nat} (le : n ≤ m) :
    (hexadecimal n).length ≤ (hexadecimal m).length := by
  have positive : 0 < (hexadecimal m).length := by simp [hexadecimal, Nat.length_toDigits_pos]
  refine (Nat.length_toDigits_le_iff (by decide) positive).mpr (Nat.lt_of_le_of_lt le ?_)
  exact (Nat.length_toDigits_le_iff (by decide) positive).mp (Nat.le_refl _)

/-- The limits with which a connection builds an exchange. -/
def exchangeLimits (config : GatewayConfig) : ExchangeLimits where
  segmentBytes := config.buffers.segmentBytes
  lowWatermark := config.buffers.lowWatermark
  highWatermark := config.buffers.highWatermark
  maxBufferedBytes := config.buffers.connectionBytes

namespace ProxyExchange

/-- With a drained queue and enough budget, a write hits the byte limit exactly when the exchange
takes it and its wire form is longer than the queue may be. -/
theorem feedRequestBody_limit_iff {exchange : ProxyExchange} {data : Bytes} (isView : Bool)
    (opened : exchange.cancelled = false → exchange.toUpstream.closed = false)
    (drained : exchange.toUpstream.queuedBytes = 0)
    (budget : ∀ ledger ∈ exchange.accounting,
      ((ledger.buffered + framedLength exchange.chunkedRequest data : Nat) : Int) ≤ ledger.maxBuffered) :
    (∀ message, (feedRequestBody data isView exchange).2 ≠ .error (.bufferLimit message)) ↔
      (exchange.cancelled ∨ exchange.requestFinished ∨
        exchange.chunkedRequest = false ∧ exchange.contentLength <
          (exchange.requestSent + data.length : Nat)) ∨
      framedLength exchange.chunkedRequest data ≤ exchange.toUpstream.maxBytes := by
  by_cases refused : exchange.cancelled ∨ exchange.requestFinished ∨
      exchange.chunkedRequest = false ∧ exchange.contentLength < (exchange.requestSent + data.length : Nat)
  · refine ⟨fun _ => .inl refused, fun _ message => ?_⟩
    rcases feedRequestBody_refused isView refused with ⟨_, run⟩ | ⟨_, _, run⟩ <;> rw [run] <;> simp
  · obtain ⟨live, going, within⟩ : exchange.cancelled = false ∧ exchange.requestFinished = false ∧
        ¬ (exchange.chunkedRequest = false ∧
          exchange.contentLength < (exchange.requestSent + data.length : Nat)) := by
      simpa only [not_or, Bool.not_eq_true] using refused
    obtain ⟨framed, view, length, run⟩ := @feedRequestBody_writable _ data isView live going within
    rw [run, ← length, or_iff_right refused]
    rw [← length] at budget
    by_cases fits : framed.length ≤ exchange.toUpstream.maxBytes
    · obtain ⟨next, transition, returned⟩ :=
        @appendUpstream_room { exchange with requestSent := exchange.requestSent + data.length } framed
          ⟨fun ledger found => .inr (budget ledger found), opened live, by simp only [drained]; omega⟩ view
      rw [returned]
      exact ⟨fun _ => fits, fun _ _ => nofun⟩
    · obtain ⟨error, raised, which⟩ :=
        @appendUpstream_no_room { exchange with requestSent := exchange.requestSent + data.length } framed
          (fun room => fits (by have := room.2.2; simp only [drained] at this; omega)) view
      rw [raised, which (fun ledger found => .inr (budget ledger found)) (opened live)]
      exact ⟨fun none => absurd rfl (none _), fun some_ => absurd some_ fits⟩

/-- A chunk that the codec emitted under a configuration is forwarded without hitting the byte limit
exactly when the exchange refuses it before, or its wire form is no longer than the connection's
buffer. Every chunk of every request is when the buffer covers a whole body and the largest chunk
with its framing. What is assumed is that the exchange forwards the framing of the head that the
chunk came with, that its queue is empty and that the shared gauge has room, so that only its own
limit is in question. Nothing is assumed about earlier writes, nor about the response side. -/
theorem chunk_forwarded_iff (config : GatewayConfig) (calls : List (Bytes × Int)) (codec : Http1ServerCodec)
    (events : List Event) (run : (GatewayConnection.init config).codec.feedAll calls = (codec, .ok events))
    (head : RequestHead) (data : Bytes) (emitted : (head, data) ∈ emittedChunks none events)
    (request : ExchangeRequest)
    (framing : request.contentLength = head.contentLength ∧ request.chunkedRequest = head.chunked)
    (accounting : Option Ledger) (exchange : ProxyExchange)
    (reached : Reached request (exchangeLimits config) accounting exchange)
    (drained : exchange.toUpstream.queuedBytes = 0)
    (budget : ∀ ledger ∈ exchange.accounting,
      ((ledger.buffered + framedLength head.chunked data : Nat) : Int) ≤ ledger.maxBuffered)
    (isView : Bool) :
    ((∀ message, (feedRequestBody data isView exchange).2 ≠ .error (.bufferLimit message)) ↔
      (exchange.cancelled ∨ exchange.requestFinished ∨
        head.chunked = false ∧ head.contentLength < (exchange.requestSent + data.length : Nat)) ∨
      framedLength head.chunked data ≤ config.buffers.connectionBytes) ∧
    (config.http1.bodyBytes ≤ config.buffers.connectionBytes →
      config.http1.chunkBytes + (hexadecimal config.http1.chunkBytes).length + 4 ≤
        config.buffers.connectionBytes →
      ∀ message, (feedRequestBody data isView exchange).2 ≠ .error (.bufferLimit message)) := by
  have terms := reached.terms
  have length := terms.contentLength.trans framing.1
  have chunked := terms.chunkedRequest.trans framing.2
  have limit : exchange.toUpstream.maxBytes = config.buffers.connectionBytes := Int.ofNat.inj terms.maxBytes
  have exactly := @feedRequestBody_limit_iff exchange data isView terms.opened drained (by rwa [chunked])
  rw [length, chunked, limit] at exactly
  refine ⟨exactly, fun body chunk => exactly.mpr (.inr ?_)⟩
  have within : (data.length : Int) ≤ if head.chunked then (config.http1.chunkBytes : Int)
      else config.http1.bodyBytes :=
    emittedChunks_within run _ emitted
  unfold framedLength
  split
  · rename_i framed
    rw [if_pos framed.1] at within
    have digits := hexadecimal_length_mono (show data.length ≤ config.http1.chunkBytes by omega)
    omega
  · have smaller := config.http1.chunk_le_body
    split at within <;> omega

/-- A chunked upload, as the server builds its exchange. -/
def uploadRequest : ExchangeRequest where
  method := "PUT".toList
  target := "/".toList
  headers := []
  upstreamAuthority := "u".toList
  clientIp := "c".toList
  scheme := "s".toList
  originalHost := "a".toList
  contentLength := -1
  chunkedRequest := true

/-- Its exchange after the head was written. -/
theorem uploadRequest_drained : ∃ exchange, Reached uploadRequest (exchangeLimits {}) none exchange ∧
    exchange.toUpstream.queuedBytes = 0 ∧ exchange.accounting = none ∧ exchange.cancelled = false ∧
    exchange.requestFinished = false := by
  have observed : ((init uploadRequest (exchangeLimits {}) none).toOption.map fun exchange =>
      let after := ((Op.takeUpstream (-1)).perform exchange).1
      (after.toUpstream.queuedBytes, after.accounting.isNone, after.cancelled, after.requestFinished)) =
      some (0, true, false, false) := by
    decide +kernel
  cases start : init uploadRequest (exchangeLimits {}) none with
  | error error =>
    rw [start] at observed
    cases observed
  | ok exchange =>
    rw [start] at observed
    simp only [Except.toOption, Option.map_some, Option.some.injEq, Prod.mk.injEq,
      Option.isNone_iff_eq_none] at observed
    exact ⟨_, .perform (.takeUpstream (-1)) (.start start), observed⟩

def uploadHead : RequestHead where
  method := "PUT".toList
  target := "/".toList
  version := .http10
  headers := [("transfer-encoding".toList, "chunked".toList)]
  keepAlive := false
  expectContinue := false
  contentLength := -1
  chunked := true

theorem chunk_forwarded_iff_short : ∃ codec events exchange,
    (GatewayConnection.init {}).codec.feedAll
      [(ascii "PUT / HTTP/1.0\r\ntransfer-encoding: chunked\r\n\r\n2\r\nhi\r\n", 0)] = (codec, .ok events) ∧
    (uploadHead, ascii "hi") ∈ emittedChunks none events ∧
    Reached uploadRequest (exchangeLimits {}) none exchange ∧ exchange.toUpstream.queuedBytes = 0 ∧
    ∀ message, (feedRequestBody (ascii "hi") false exchange).2 ≠ .error (.bufferLimit message) := by
  obtain ⟨exchange, reached, drained, accounting, -⟩ := uploadRequest_drained
  have run : (GatewayConnection.init {}).codec.feedAll
      [(ascii "PUT / HTTP/1.0\r\ntransfer-encoding: chunked\r\n\r\n2\r\nhi\r\n", 0)] =
      ({ (GatewayConnection.init {}).codec with state := .chunkSize, bodyReceived := 2 },
        .ok [.requestHead uploadHead, .bodyChunk (ascii "hi")]) := by
    rw [ascii_ofList, ascii_ofList]
    decide
  have emitted : (uploadHead, ascii "hi") ∈ emittedChunks none
      [.requestHead uploadHead, .bodyChunk (ascii "hi")] := by
    decide
  refine ⟨_, _, exchange, run, emitted, reached, drained, ?_⟩
  refine ((chunk_forwarded_iff {} _ _ _ run uploadHead (ascii "hi") emitted uploadRequest
    ⟨rfl, rfl⟩ none exchange reached
    drained (by simp [accounting]) false).1).mpr (.inr ?_)
  decide

/-- An upload of one chunk. -/
def chunkUpload (data : Bytes) : Message where
  block := ascii "PUT / HTTP/1.0\r\ntransfer-encoding: chunked"
  head := uploadHead
  body := .chunked {
    chunks := [⟨(hexadecimal data.length).map charByte, data⟩], lastLine := ascii "0",
    trailerWire := crlf, trailers := [] }

theorem chunkUpload_decoded {data : Bytes} (filled : data ≠ []) (fits : data.length ≤ 1048576) :
    (GatewayConnection.init {}).codec.feedAll [((chunkUpload data).wire, 0)] =
      ((GatewayConnection.init {}).codec,
        .ok [.requestHead uploadHead, .bodyChunk data, .requestEnd []]) := by
  have headBlock : HeadBlock (GatewayConnection.init {}).codec.limits
      (ascii "PUT / HTTP/1.0\r\ntransfer-encoding: chunked") uploadHead := by
    rw [ascii_ofList]
    exact ⟨by unfold Search.Delimited; decide +kernel, by decide, by decide⟩
  have line : SizeLine ((hexadecimal data.length).map charByte) data.length :=
    sizeLine_hexadecimal (by omega)
  have valid : ChunkedBody.Valid (GatewayConnection.init {}).codec.limits.toBodyLimits {
      chunks := [⟨(hexadecimal data.length).map charByte, data⟩], lastLine := ascii "0",
      trailerWire := crlf, trailers := [] } := by
    refine ⟨?_, ?_, @sizeLine_hexadecimal 0 (by decide), by decide, .none⟩
    · intro chunk member
      rw [List.mem_singleton] at member
      subst member
      exact ⟨line, filled, by simp [GatewayConnection.init]; omega⟩
    · simp [ChunkedBody.data, GatewayConnection.init]
      omega
  have fed := Http1ServerCodec.feed_of_steps (Http1ServerCodec.chunked_steps headBlock rfl valid rfl)
  have whole : (GatewayConnection.init {}).codec.feed (chunkUpload data).wire 0 =
      ((GatewayConnection.init {}).codec,
        .ok [.requestHead uploadHead, .bodyChunk data, .requestEnd []]) := fed
  simp only [Http1ServerCodec.feedAll, whole, List.append_nil]

theorem longUpload_refused : let data : Bytes := List.replicate 1048576 0
    ∃ codec events exchange,
      (GatewayConnection.init {}).codec.feedAll [((chunkUpload data).wire, 0)] = (codec, .ok events) ∧
      (uploadHead, data) ∈ emittedChunks none events ∧
      Reached uploadRequest (exchangeLimits {}) none exchange ∧ exchange.toUpstream.queuedBytes = 0 ∧
      exchange.accounting = none ∧
      ¬ ∀ message, (feedRequestBody data false exchange).2 ≠ .error (.bufferLimit message) := by
  intro data
  have size : data.length = 1048576 := List.length_replicate ..
  clear_value data
  have filled : data ≠ [] := List.ne_nil_of_length_pos (by omega)
  obtain ⟨exchange, reached, drained, accounting, live, going⟩ := uploadRequest_drained
  have terms := reached.terms
  have chunked : exchange.chunkedRequest = true := terms.chunkedRequest
  have limit : exchange.toUpstream.maxBytes = 1048576 := Int.ofNat.inj terms.maxBytes
  refine ⟨_, _, exchange, chunkUpload_decoded filled size.le, by simp [emittedChunks], reached,
    drained, accounting, ?_⟩
  rw [feedRequestBody_limit_iff false terms.opened drained (by simp [accounting]), chunked, limit]
  simp [live, going, framedLength, filled, size]

end ProxyExchange
end PccGateway
