import PccGateway.Lib.Merging
import PccGateway.Proxy.Commitment
import PccGateway.Proxy.ResponseHead
import PccGateway.Proxy.UpstreamAcceptance

namespace PccGateway
open Incremental

def UpstreamEvent.body : UpstreamEvent → Option Bytes
  | .responseBody data => some data
  | _ => none

/-- Adjacent body events become one. -/
def mergeBodies : List UpstreamEvent → List UpstreamEvent := Merging.merge UpstreamEvent.body .responseBody

/-- The body bytes of the events. -/
def bodyData (events : List UpstreamEvent) : Bytes := (events.filterMap UpstreamEvent.body).flatten

theorem upstreamEvent_pieces : Merging.Pieces UpstreamEvent.body UpstreamEvent.responseBody where
  data_piece := fun _ => rfl
  piece_of_data := by
    intro event content carries
    cases event <;> simp_all [UpstreamEvent.body]

namespace Http1UpstreamCodec

/-- The events of a turn in a streaming state are what it took, and the end if it was the last one. -/
theorem Step.streamed {codec next : Http1UpstreamCodec} {events : List UpstreamEvent} {complete : Bool}
    (step : Step codec next events complete) (streams : codec.Streams) (running : codec.complete = false) :
    ∃ taken, codec.buffer = taken ++ next.buffer ∧
      events = (if taken = [] then [] else [.responseBody taken]) ++
        (if next.complete then [.responseEnd []] else []) := by
  cases step with
  | fixedPart state filled => exact ⟨codec.buffer, by simp, by simp [filled, running]⟩
  | fixedLast state filled => exact ⟨codec.buffer, by simp [finished], by simp [filled, finished]⟩
  | chunkPart state filled => exact ⟨codec.buffer, by simp, by simp [filled, running]⟩
  | @chunkLast data rest state filled buffer => exact ⟨data, buffer, by simp [running]⟩
  | untilEof state filled => exact ⟨codec.buffer, by simp, by simp [filled, running]⟩
  | head state => simp [Streams, state] at streams
  | headOnly state => simp [Streams, state] at streams
  | chunkSize state => simp [Streams, state] at streams
  | lastChunk state => simp [Streams, state] at streams
  | chunkCrlf state => simp [Streams, state] at streams
  | noTrailers state => simp [Streams, state] at streams
  | trailers state => simp [Streams, state] at streams

theorem Streams.turn_ne_wait {codec : Http1UpstreamCodec} (streams : codec.Streams)
    (filled : codec.buffer ≠ []) :
    codec.turn ≠ .wait := by
  intro waits
  unfold turn at waits
  rcases streams with state | state | state
  · simp only [state, fixedBodyTurn, filled, if_false, finishTurn, failTurn] at waits
    repeat' split at waits
    all_goals cases waits
  · simp only [state, chunkDataTurn, filled, if_false] at waits
    repeat' split at waits
    all_goals cases waits
  · simp only [state, untilEofTurn, filled, if_false, failTurn] at waits
    repeat' split at waits
    all_goals cases waits

theorem Step.running {codec next : Http1UpstreamCodec} {events : List UpstreamEvent} {complete : Bool}
    (step : Step codec next events complete) (running : next.complete = false) :
    codec.complete = false := by
  cases step with
  | @head block rest head =>
    exact (Progress.enterBody_frame { codec with buffer := rest } head).2.2.1.symm.trans running
  | headOnly => cases running
  | fixedLast => cases running
  | noTrailers => cases running
  | trailers => cases running
  | _ => exact running

theorem outcome_eq_some_iff {turn : Turn Http1UpstreamCodec Exn UpstreamEvent} {next : Http1UpstreamCodec} :
    turn.outcome = some (some next) ↔ ∃ events complete, turn = .emit next events complete := by
  cases turn <;> simp [Turn.outcome]

/-- Until the response is complete, the decoder does the same with more input behind what it has. -/
theorem decoder_stableOn : decoder.StableOn (fun codec => codec.complete = false)
    fun first second => mergeBodies first = mergeBodies second where
  back := fun turn running => (turn_eq_emit_iff.mp turn).running running
  push := by
    intro codec next events complete turn running data nonempty
    have step : Step codec next events complete := turn_eq_emit_iff.mp turn
    have running' := step.running running
    rcases step.push nonempty with pushed | ⟨⟨other, rfl⟩, _⟩ | ⟨⟨streams, state, empty⟩, _, idle, joined⟩
    · exact .inl pushed.turn
    · cases running
    · have streams' : (next.push data).Streams := by
        unfold Streams at streams ⊢
        rwa [show (next.push data).state = codec.state from state]
      have filled : (next.push data).buffer ≠ [] := by simp [push, nonempty]
      refine .inr ⟨idle, streams'.turn_ne_wait filled, fun t new complete' later => ?_⟩
      have outcome : (codec.push data).turn.outcome = some (some t) :=
        joined.trans (outcome_eq_some_iff.mpr ⟨new, complete', later⟩)
      obtain ⟨all, complete'', whole⟩ := outcome_eq_some_iff.mp outcome
      refine ⟨all, complete'', whole, ?_⟩
      obtain ⟨taken, buffer, rfl⟩ := step.streamed streams running'
      obtain ⟨more, laterBuffer, rfl⟩ := (turn_eq_emit_iff.mp later).streamed streams' running
      obtain ⟨both, wholeBuffer, rfl⟩ := (turn_eq_emit_iff.mp whole).streamed streams running'
      rw [empty, List.append_nil] at buffer
      have rest : data = more ++ t.buffer := by simpa [decoder, push, empty] using laterBuffer
      have cut : both = taken ++ more := by
        have joined : codec.buffer ++ data = both ++ t.buffer := wholeBuffer
        rw [buffer, rest, ← List.append_assoc] at joined
        exact (List.append_cancel_right joined).symm
      have some_ : taken ≠ [] := buffer ▸ step.filled
      subst cut
      simp only [running, Bool.false_eq_true, if_false, List.append_nil, some_]
      by_cases last : more = []
      · simp [last, some_]
      · have joins (tail : List UpstreamEvent) : mergeBodies (.responseBody (taken ++ more) :: tail) =
            mergeBodies (.responseBody taken :: .responseBody more :: tail) :=
          (Merging.join_piece upstreamEvent_pieces taken more (mergeBodies tail)).symm
        simpa [last, some_] using joins _

theorem Step.waiting_settled {codec next : Http1UpstreamCodec} {data : Bytes} {events : List UpstreamEvent}
    (settled : codec.Settled) (running : codec.complete = false)
    (steps : decoder.Steps (codec.push data) next events) :
    next.Settled := by
  have pushed : (codec.push data).Settled := ⟨settled.1, fun isOver =>
    absurd (running.symm.trans isOver) (by simp)⟩
  exact steps.preserves (P := Settled)
    (fun _ _ _ _ held turn => (turn_eq_emit_iff.mp turn).settled held) pushed

/-- Pieces that are all accepted are decoded as their concatenation is. -/
theorem feedAll_eq_whole {codec last : Http1UpstreamCodec} {pieces : List Bytes}
    {events : List UpstreamEvent} (settled : codec.Settled) (waits : codec.turn = .wait)
    (run : codec.feedAll pieces = (last, .ok events)) :
    ∃ whole, codec.feed pieces.flatten = (last, .ok whole) ∧ mergeBodies whole = mergeBodies events := by
  induction pieces generalizing codec events with
  | nil =>
    cases run
    refine ⟨[], ?_, rfl⟩
    cases isOver : last.complete with
    | true => simp [feed, isOver]
    | false =>
      have idle : decoder.Steps (last.push []) last [] := by
        rw [show last.push [] = last from decoder.push_nil last]
        exact .refl last
      exact (feed_eq_ok_iff settled.1 isOver).mpr ⟨idle, waits⟩
  | cons data pieces ih =>
    obtain ⟨next, first, rest, firstRun, restRun, rfl⟩ := feedAll_cons_eq_ok run
    cases isOver : codec.complete with
    | true =>
      have nothing : data = [] ∧ next = codec ∧ first = [] := by
        unfold feed at firstRun
        simp only [isOver, or_true, if_true, Prod.mk.injEq] at firstRun
        obtain ⟨rfl, result⟩ := firstRun
        split at result
        · cases result
        · rename_i empty
          cases result
          exact ⟨by simpa using empty, rfl, rfl⟩
      obtain ⟨rfl, rfl, rfl⟩ := nothing
      simpa using ih settled waits restRun
    | false =>
      obtain ⟨firstSteps, idle⟩ := (feed_eq_ok_iff settled.1 isOver).mp firstRun
      have settled' := Step.waiting_settled settled isOver firstSteps
      obtain ⟨whole, restFeed, agree⟩ := ih settled' idle restRun
      have closed : codec.closed = false := settled.1
      cases isOver' : next.complete with
      | true =>
        unfold feed at restFeed
        simp only [isOver', or_true, if_true, Prod.mk.injEq] at restFeed
        obtain ⟨rfl, result⟩ := restFeed
        split at result
        · cases result
        · rename_i empty
          cases result
          have empty : pieces.flatten = [] := by simpa using empty
          refine ⟨first, by rw [List.flatten_cons, empty, List.append_nil]; exact firstRun, ?_⟩
          rw [show mergeBodies (first ++ rest) = mergeBodies (first ++ []) from
            (Merging.merge_coalescing upstreamEvent_pieces).append rfl agree.symm, List.append_nil]
      | false =>
        obtain ⟨restSteps, ends⟩ := (feed_eq_ok_iff settled'.1 isOver').mp restFeed
        obtain ⟨all, steps, same⟩ := firstSteps.push_run (Merging.merge_coalescing upstreamEvent_pieces)
          decoder_stableOn idle isOver' restSteps ends
        refine ⟨all, (feed_eq_ok_iff closed isOver).mpr ⟨?_, ends⟩, ?_⟩
        · rwa [show decoder.push (codec.push data) pieces.flatten = codec.push (data ++ pieces.flatten) from
            decoder.push_push codec data _] at steps
        · exact same.trans ((Merging.merge_coalescing upstreamEvent_pieces).append rfl agree)

theorem feedAll_settled {codec last : Http1UpstreamCodec} {pieces : List Bytes}
    {events : List UpstreamEvent}
    (settled : codec.Settled) (run : codec.feedAll pieces = (last, .ok events)) : last.Settled := by
  induction pieces generalizing codec events with
  | nil =>
    cases run
    exact settled
  | cons data pieces ih =>
    obtain ⟨next, first, rest, firstRun, restRun, rfl⟩ := feedAll_cons_eq_ok run
    refine ih ?_ restRun
    cases isOver : codec.complete with
    | true =>
      unfold feed at firstRun
      simp only [isOver, or_true, if_true, Prod.mk.injEq] at firstRun
      exact firstRun.1 ▸ settled
    | false => exact Step.waiting_settled settled isOver ((feed_eq_ok_iff settled.1 isOver).mp firstRun).1

theorem decoder_fresh_waits (method : Text) (limits : UpstreamLimits) :
    turn { requestMethod := method, limits := limits } = .wait := by
  have header := limits.headerBytes_pos
  simp [turn, headTurn, findDoubleCrlf, Search.findSub, Int.not_lt.mpr (Int.le_of_lt header)]

/-- How much of the body the codec has counted, next to the events that delivered it. -/
structure Received (codec : Http1UpstreamCodec) (events : List UpstreamEvent) : Prop where
  count : (bodyData events).length = codec.bodyReceived
  room : ((codec.bodyReceived + codec.remaining : Nat) : Int) ≤ max 0 codec.limits.maxBodyBytes
  start : codec.state = .head → codec.bodyReceived = 0 ∧ codec.remaining = 0
  unframed : codec.state = .untilEof → codec.remaining = 0

theorem bodyData_append (first second : List UpstreamEvent) :
    bodyData (first ++ second) = bodyData first ++ bodyData second := by
  simp [bodyData]

theorem enterBody_room {codec : Http1UpstreamCodec} {head : UpstreamResponseHead}
    (start : codec.bodyReceived = 0 ∧ codec.remaining = 0)
    (bound : 0 ≤ head.contentLength → head.contentLength ≤ codec.limits.maxBodyBytes) :
    (((codec.enterBody head).bodyReceived + (codec.enterBody head).remaining : Nat) : Int) ≤
        max 0 codec.limits.maxBodyBytes ∧
      (codec.enterBody head).bodyReceived = 0 ∧
      ((codec.enterBody head).state = .head ∨ (codec.enterBody head).state = .untilEof →
        (codec.enterBody head).remaining = 0) := by
  have none : ((codec.bodyReceived + codec.remaining : Nat) : Int) ≤
      max 0 codec.limits.maxBodyBytes := by omega
  unfold enterBody
  split
  · exact ⟨none, start.1, fun _ => start.2⟩
  · split
    · exact ⟨none, start.1, fun _ => start.2⟩
    · split
      · exact ⟨none, start.1, fun _ => start.2⟩
      · split
        · rename_i known
          have bound := bound known
          exact ⟨by simp only; omega, start.1, by simp⟩
        · exact ⟨none, start.1, fun _ => start.2⟩

theorem Step.received {codec next : Http1UpstreamCodec} {past events : List UpstreamEvent} {complete : Bool}
    (step : Step codec next events complete) (received : codec.Received past) :
    next.Received (past ++ events) := by
  obtain ⟨count, room, start, unframed⟩ := received
  have counted (data : Bytes) :
      (bodyData (past ++ [.responseBody data])).length = codec.bodyReceived + data.length := by
    rw [bodyData_append, List.length_append, count]
    simp [bodyData, UpstreamEvent.body]
  have silent (event : UpstreamEvent) (none : event.body = Option.none) (all : List UpstreamEvent) :
      bodyData (all ++ [event]) = bodyData all := by
    rw [bodyData_append]
    simp [bodyData, none]
  cases step with
  | @head block rest head state buffer delimited bound parsed busy =>
    have limit := (ParsedHead.sound ⟨block, parsed⟩).bound
    obtain ⟨room, zero, still⟩ := @enterBody_room { codec with buffer := rest } _ (start state) limit
    have frame := Progress.enterBody_frame { codec with buffer := rest } head
    refine ⟨?_, ?_, fun again => ⟨zero, still (.inl again)⟩, fun again => still (.inr again)⟩
    · rw [silent _ rfl, count, zero, (start state).1]
    · rw [frame.2.1]
      exact room
  | @headOnly block head state =>
    refine ⟨?_, room, (by rintro ⟨⟩), (by rintro ⟨⟩)⟩
    rw [show past ++ [UpstreamEvent.responseHead head, .responseEnd []] = past ++
      [.responseHead head] ++ [.responseEnd []] by simp, silent _ rfl, silent _ rfl]
    exact count
  | fixedPart state filled short =>
    exact ⟨counted _, by simp only; omega, fun other => by simp [state] at other,
      fun other => by simp [state] at other⟩
  | fixedLast state filled same =>
    refine ⟨?_, by simp only [finished]; omega, (by rintro ⟨⟩), (by rintro ⟨⟩)⟩
    rw [show past ++ [UpstreamEvent.responseBody codec.buffer, .responseEnd []] =
      past ++ [.responseBody codec.buffer] ++ [.responseEnd []] by simp, silent _ rfl, counted, same]
    rfl
  | chunkSize state buffer delimited short parsed positive chunkBound bodyBound =>
    rw [List.append_nil]
    exact ⟨count, by simp only; omega, (by simp), (by simp)⟩
  | lastChunk =>
    rw [List.append_nil]
    exact ⟨count, room, (by simp), (by simp)⟩
  | chunkPart state filled short =>
    exact ⟨counted _, by simp only; omega, fun other => by simp [state] at other,
      fun other => by simp [state] at other⟩
  | @chunkLast data rest state filled buffer length =>
    refine ⟨?_, by simp only; omega, (by simp), (by simp)⟩
    split
    · rename_i empty
      simp only [empty, List.length_nil] at length
      rw [List.append_nil, count, ← length]
      rfl
    · rw [counted, length]
  | chunkCrlf =>
    rw [List.append_nil]
    exact ⟨count, room, (by simp), (by simp)⟩
  | noTrailers => exact ⟨by rw [silent _ rfl]; exact count, room, (by rintro ⟨⟩), (by rintro ⟨⟩)⟩
  | trailers => exact ⟨by rw [silent _ rfl]; exact count, room, (by rintro ⟨⟩), (by rintro ⟨⟩)⟩
  | untilEof state filled bound =>
    have none := unframed state
    exact ⟨counted _, by simp only; omega, fun other => by simp [state] at other, fun _ => none⟩

theorem Received.fresh (method : Text) (limits : UpstreamLimits) :
    Received { requestMethod := method, limits := limits } [] where
  count := rfl
  room := Int.le_max_left ..
  start := fun _ => ⟨rfl, rfl⟩
  unframed := nofun

theorem Received.feedAll {codec last : Http1UpstreamCodec} {past events : List UpstreamEvent}
    {pieces : List Bytes}
    (received : codec.Received past) (run : codec.feedAll pieces = (last, .ok events)) :
    last.Received (past ++ events) := by
  induction pieces generalizing codec past events with
  | nil =>
    cases run
    simpa using received
  | cons data pieces ih =>
    obtain ⟨next, first, rest, firstRun, restRun, rfl⟩ := feedAll_cons_eq_ok run
    rw [← List.append_assoc]
    refine ih ?_ restRun
    unfold feed at firstRun
    split at firstRun
    · obtain ⟨rfl, result⟩ := Prod.mk.inj firstRun
      split at result
      · cases result
      · cases result
        simpa using received
    · split at firstRun
      · rename_i whole
        cases firstRun
        refine (Decoder.feed_ok_steps whole).invariant (P := fun codec events =>
          Received codec events) ?_ ?_
        · intro codec next past new complete held turn
          exact (turn_eq_emit_iff.mp turn).received held
        · exact ⟨received.count, received.room, received.start, received.unframed⟩
      · cases firstRun

/-- Two cuts of one stream that are both accepted give the same events and leave the codec in the same
state. -/
theorem feedAll_agree {method : Text} {limits : UpstreamLimits} {first second : List Bytes}
    {last last' : Http1UpstreamCodec}
    {events events' : List UpstreamEvent} (same : first.flatten = second.flatten)
    (run : feedAll { requestMethod := method, limits := limits } first = (last, .ok events))
    (run' : feedAll { requestMethod := method, limits := limits } second = (last', .ok events')) :
    last = last' ∧ mergeBodies events = mergeBodies events' := by
  have settled : Settled { requestMethod := method, limits := limits } := ⟨rfl, nofun⟩
  obtain ⟨whole, fed, agree⟩ := feedAll_eq_whole settled (decoder_fresh_waits method limits) run
  obtain ⟨whole', fed', agree'⟩ := feedAll_eq_whole settled (decoder_fresh_waits method limits) run'
  rw [same, fed'] at fed
  cases fed
  exact ⟨rfl, agree.symm.trans agree'⟩

end Http1UpstreamCodec

/-- At most one final head, and nothing after an end. -/
structure OneResponse (events : List UpstreamEvent) : Prop where
  finals : (events.filter UpstreamEvent.isFinal).length ≤ 1
  last : ∀ before event after, events = before ++ event :: after → event.isEnd = true → after = []

theorem oneResponse_append {events : List UpstreamEvent} {end_ : Option UpstreamEvent}
    (finals : (events.filter UpstreamEvent.isFinal).length ≤ 1)
    (running : ∀ event ∈ events, event.isEnd = false)
    (silent : ∀ event ∈ end_, event.isFinal = false) : OneResponse (events ++ end_.toList) := by
  constructor
  · cases end_ with
    | none => simpa using finals
    | some event => simpa [silent event rfl] using finals
  · intro before event after split ends
    rcases List.append_eq_append_iff.mp split with ⟨more, rfl, rest⟩ | ⟨more, rfl, rest⟩
    · cases end_ with
      | none =>
        have := congrArg List.length rest
        simp at this
      | some only =>
        have := congrArg List.length rest
        simp only [Option.toList_some, List.length_cons, List.length_nil, List.length_append] at this
        exact List.eq_nil_of_length_eq_zero (by omega)
    · cases more with
      | nil =>
        cases end_ with
        | none => simp at rest
        | some only =>
          have := congrArg List.length rest
          simp only [List.nil_append, Option.toList_some, List.length_cons, List.length_nil] at this
          exact List.eq_nil_of_length_eq_zero (by omega)
      | cons head more =>
        obtain ⟨rfl, -⟩ := List.cons.inj rest
        have := running event (by simp)
        simp [ends] at this

theorem Progress.oneResponse {codec : Http1UpstreamCodec} {events : List UpstreamEvent}
    (progress : Progress codec events) :
    OneResponse events := by
  have infos {heads : List UpstreamResponseHead} {P : UpstreamResponseHead → Prop}
      (informational : ∀ head ∈ heads, head.informational = true ∧ P head) :
      (heads.map UpstreamEvent.responseHead).filter UpstreamEvent.isFinal = [] := by
    rw [List.filter_eq_nil_iff]
    intro event member
    obtain ⟨head, listed, rfl⟩ := List.mem_map.mp member
    simp [UpstreamEvent.isFinal, (informational head listed).1]
  have bodies (pieces : List Bytes) :
      (pieces.map UpstreamEvent.responseBody).filter UpstreamEvent.isFinal = [] := by
    rw [List.filter_eq_nil_iff]
    intro event member
    obtain ⟨piece, -, rfl⟩ := List.mem_map.mp member
    simp [UpstreamEvent.isFinal]
  have running {heads : List UpstreamResponseHead} {head : UpstreamResponseHead} {pieces : List Bytes} :
      ∀ event ∈ heads.map UpstreamEvent.responseHead ++ .responseHead head ::
        pieces.map .responseBody, event.isEnd = false := by
    intro event member
    simp only [List.mem_append, List.mem_map, List.mem_cons] at member
    rcases member with ⟨_, _, rfl⟩ | rfl | ⟨_, _, rfl⟩ <;> rfl
  have one {heads : List UpstreamResponseHead} {P : UpstreamResponseHead → Prop}
      {head : UpstreamResponseHead} {pieces : List Bytes}
      (informational : ∀ head ∈ heads, head.informational = true ∧ P head) :
      (List.filter UpstreamEvent.isFinal
        (heads.map .responseHead ++ .responseHead head :: pieces.map .responseBody)).length ≤ 1 := by
    rw [List.filter_append, infos informational, List.filter_cons, bodies]
    split <;> simp
  cases progress with
  | @heads informational state unfinished received parsed =>
    have only := @oneResponse_append (informational.map .responseHead) none (by simp [infos parsed]) (by
      intro event member
      obtain ⟨head, _, rfl⟩ := List.mem_map.mp member
      rfl) (by simp)
    simpa using only
  | @body informational head pieces unfinished parsed =>
    have only := @oneResponse_append _ none (one parsed) (@running _ head pieces) (by simp)
    simpa using only
  | @done informational head pieces trailers state complete parsed =>
    have only := @oneResponse_append _ (some (.responseEnd trailers)) (one parsed)
      (@running _ head pieces) (by simp [UpstreamEvent.isFinal])
    simpa using only

end PccGateway
