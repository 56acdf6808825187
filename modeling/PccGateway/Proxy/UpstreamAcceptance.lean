import PccGateway.Http1.Acceptance
import PccGateway.Proxy.UpstreamRun

namespace PccGateway
open Incremental Search

namespace Http1UpstreamCodec

/-- A chunk-size line without its CRLF that is already longer than its limit. -/
def Overrun (codec : Http1UpstreamCodec) : Prop :=
  codec.state = .chunkSize ∧ findCrlf codec.buffer = none ∧ 128 < codec.buffer.length

/-- A turn of `feed` that also does what the next call does first: bytes behind a complete response are
refused. -/
def acceptTurn (codec : Http1UpstreamCodec) : Turn Http1UpstreamCodec Exn UpstreamEvent :=
  if codec.complete ∧ codec.buffer ≠ [] then
    codec.failTurn "response-complete" "bytes after upstream response"
  else codec.turn

theorem acceptTurn_emit {codec next : Http1UpstreamCodec} {events : List UpstreamEvent} {complete : Bool}
    (run : codec.acceptTurn = .emit next events complete) : Step codec next events complete := by
  unfold acceptTurn at run
  split at run
  · simp [failTurn] at run
  · exact turn_eq_emit_iff.mp run

def acceptor : Decoder Http1UpstreamCodec Exn UInt8 UpstreamEvent where
  turn := acceptTurn
  push := push
  size := size
  push_nil := push_nil
  push_push := push_push
  size_lt := fun run => (acceptTurn_emit run).size_lt

theorem enterBody_push (codec : Http1UpstreamCodec) (head : UpstreamResponseHead) (data : Bytes) :
    (codec.push data).enterBody head = (codec.enterBody head).push data := by
  unfold enterBody
  split <;> [rfl; (split <;> [rfl; (split <;> [rfl; (split <;> rfl)])])]

theorem finishTurn_outcome (codec : Http1UpstreamCodec) (events : List UpstreamEvent)
    (trailers : List Header) :
    (codec.finishTurn events trailers).outcome = if codec.buffer = [] then some (some codec.finished)
    else some none := by
  unfold finishTurn
  by_cases empty : codec.buffer = []
  · simp [empty, Turn.outcome, finished]
  · simp [empty, Turn.outcome, failTurn]

section Outcomes
variable {codec : Http1UpstreamCodec} {marker : Nat}

theorem fixedBodyTurn_outcome (filled : codec.buffer ≠ []) :
    codec.fixedBodyTurn.outcome = if codec.buffer.length < codec.remaining then
      some (some { codec with
        buffer := []
        remaining := codec.remaining - codec.buffer.length
        bodyReceived := codec.bodyReceived + codec.buffer.length })
    else if codec.buffer.length = codec.remaining then
      some (some (finished { codec with remaining := 0, bodyReceived := codec.bodyReceived +
        codec.remaining }))
    else some none := by
  unfold fixedBodyTurn
  rw [if_neg filled]
  by_cases short : codec.buffer.length < codec.remaining
  · have all : min codec.remaining codec.buffer.length = codec.buffer.length := by omega
    simp [all, short, show codec.remaining - codec.buffer.length ≠ 0 by omega, Turn.outcome]
  · have all : min codec.remaining codec.buffer.length = codec.remaining := by omega
    simp only [all, Nat.sub_self, if_true, short, if_false, finishTurn_outcome, List.drop_eq_nil_iff]
    by_cases same : codec.buffer.length = codec.remaining
    · simp [same, finished]
    · simp [same, show ¬ codec.buffer.length ≤ codec.remaining by omega]

theorem chunkDataTurn_outcome (filled : codec.buffer ≠ []) :
    codec.chunkDataTurn.outcome = if codec.buffer.length < codec.remaining then
      some (some { codec with
        buffer := []
        remaining := codec.remaining - codec.buffer.length
        bodyReceived := codec.bodyReceived + codec.buffer.length })
    else some (some { codec with
        buffer := codec.buffer.drop codec.remaining
        remaining := 0
        bodyReceived := codec.bodyReceived + codec.remaining
        state := .chunkCrlf }) := by
  unfold chunkDataTurn
  rw [if_neg filled]
  by_cases short : codec.buffer.length < codec.remaining
  · have all : min codec.remaining codec.buffer.length = codec.buffer.length := by omega
    simp [all, short, show codec.remaining - codec.buffer.length ≠ 0 by omega, Turn.outcome]
  · have all : min codec.remaining codec.buffer.length = codec.remaining := by omega
    simp [all, short, Turn.outcome]

theorem untilEofTurn_outcome (filled : codec.buffer ≠ []) : codec.untilEofTurn.outcome =
    if ((codec.bodyReceived + codec.buffer.length : Nat) : Int) > codec.limits.maxBodyBytes then some none
    else some (some { codec with buffer := [], bodyReceived := codec.bodyReceived +
      codec.buffer.length }) := by
  unfold untilEofTurn
  rw [if_neg filled]
  simp only
  split <;> rfl

/-- What becomes of a codec whose head was parsed. -/
def headOutcome (next : Http1UpstreamCodec) : Option (Option Http1UpstreamCodec) :=
  if next.state = .finalEmpty then if next.buffer = [] then some (some next.finished) else some none
  else some (some next)

/-- With its end in sight, a head is refused for its size or for what it says, or it is taken. -/
theorem headTurn_outcome (found : findDoubleCrlf codec.buffer = some marker) : codec.headTurn.outcome =
    if ((marker + 4 : Nat) : Int) > codec.limits.maxHeaderBytes then some none
    else (parseResponseHead codec.requestMethod codec.limits.toBodyLimits
      (codec.buffer.take marker)).toOption.elim
      (some none) fun head =>
      headOutcome (enterBody { codec with buffer := codec.buffer.drop (marker + 4) } head) := by
  unfold headTurn headOutcome
  rw [found]
  simp only
  split
  · rfl
  · cases parseResponseHead codec.requestMethod codec.limits.toBodyLimits (codec.buffer.take marker) with
    | error error => rfl
    | ok head =>
      simp only [Except.toOption, Option.elim_some]
      split
      · exact finishTurn_outcome _ _ _
      · rfl

theorem chunkSizeTurn_outcome (found : findCrlf codec.buffer = some marker) :
    codec.chunkSizeTurn.outcome = if 128 < marker then some none
    else (parseChunkSizeLine (codec.buffer.take marker)).toOption.elim (some none) fun size =>
      if (size : Int) > codec.limits.maxChunkBytes ∨
          ((codec.bodyReceived + size : Nat) : Int) > codec.limits.maxBodyBytes then some none
      else if size = 0 then
        some (some { codec with buffer := codec.buffer.drop (marker + 2), state := .trailers })
      else some (some { codec with
        buffer := codec.buffer.drop (marker + 2), state := .chunkData, remaining := size }) := by
  unfold chunkSizeTurn
  rw [found]
  simp only
  split
  · rfl
  · cases parsed : parseChunkSizeLine (codec.buffer.take marker) with
    | error error =>
      cases other : asProxyError Http1Error.code (.error error : Except Exn Nat) with
      | error _ => rfl
      | ok size => simp [asProxyError_eq_ok_iff] at other
    | ok size =>
      simp only [asProxyError, Except.toOption, Option.elim_some]
      by_cases large : (size : Int) > codec.limits.maxChunkBytes
      · simp only [large, true_or, if_true, failTurn, Turn.outcome]
      · by_cases isOver : ((codec.bodyReceived + size : Nat) : Int) > codec.limits.maxBodyBytes
        · simp only [large, isOver, or_true, if_true, if_false, failTurn, Turn.outcome]
        · simp only [large, isOver, or_self, if_false]
          split <;> rfl

theorem trailersTurn_outcome (noBlank : ¬ crlf <+: codec.buffer)
    (found : findDoubleCrlf codec.buffer = some marker) :
    codec.trailersTurn.outcome =
      if ((marker + 4 : Nat) : Int) > codec.limits.maxHeaderBytes then some none
      else (parseHeaders (splitCrlf (codec.buffer.take marker)) codec.limits.maxHeaderCount).toOption.elim
        (some none) fun trailers =>
          if forbiddenTrailers.any (hasField trailers) then some none
          else if codec.buffer.drop (marker + 4) = [] then some (some codec.finished) else some none := by
  unfold trailersTurn
  rw [if_neg noBlank, found]
  simp only
  split
  · rfl
  · cases parsed : parseHeaders (splitCrlf (codec.buffer.take marker)) codec.limits.maxHeaderCount with
    | error error =>
      cases other : asProxyError (fun _ => "bad-trailer") (.error error : Except Exn (List Header)) with
      | error _ => rfl
      | ok size => simp [asProxyError_eq_ok_iff] at other
    | ok trailers =>
      simp only [asProxyError, Except.toOption, Option.elim_some]
      split
      · rfl
      · exact finishTurn_outcome _ _ _

end Outcomes

theorem Step.filled {codec next : Http1UpstreamCodec} {events : List UpstreamEvent} {complete : Bool}
    (step : Step codec next events complete) : codec.buffer ≠ [] := by
  cases step with
  | fixedPart _ nonempty => exact nonempty
  | fixedLast _ nonempty => exact nonempty
  | chunkPart _ nonempty => exact nonempty
  | chunkLast _ nonempty => exact nonempty
  | untilEof _ nonempty => exact nonempty
  | head _ buffer => simp [buffer, doubleCrlf]
  | headOnly _ buffer => simp [buffer, doubleCrlf]
  | chunkSize _ buffer => simp [buffer, crlf]
  | lastChunk _ buffer => simp [buffer, crlf]
  | chunkCrlf _ buffer => simp [buffer, crlf]
  | noTrailers _ buffer => simp [buffer, crlf]
  | trailers _ buffer => simp [buffer, doubleCrlf]

theorem acceptTurn_incomplete {codec : Http1UpstreamCodec} (running : codec.complete = false) :
    codec.acceptTurn = codec.turn := by
  simp [acceptTurn, running]

/-- A body that ran out of input in the middle. -/
def swallow (codec : Http1UpstreamCodec) : Http1UpstreamCodec :=
  { codec with
    buffer := []
    remaining := codec.remaining - codec.buffer.length
    bodyReceived := codec.bodyReceived + codec.buffer.length }

section Push
variable {codec : Http1UpstreamCodec} {data : Bytes}

theorem chunkSizeTurn_push {marker : Nat} (found : findCrlf codec.buffer = some marker) :
    (codec.push data).chunkSizeTurn.outcome = codec.chunkSizeTurn.outcome.map (·.map (·.push data)) := by
  have fits : marker + 2 ≤ codec.buffer.length := findSub_length found
  have same : findCrlf (codec.push data).buffer = some marker := findSub_append found data
  rw [chunkSizeTurn_outcome found, chunkSizeTurn_outcome same]
  simp only [push, List.take_append_of_le_length (show marker ≤ codec.buffer.length by omega),
    List.drop_append_of_le_length fits]
  split
  · rfl
  · cases (parseChunkSizeLine (codec.buffer.take marker)).toOption with
    | none => rfl
    | some size =>
      simp only [Option.elim_some]
      split
      · rfl
      · split <;> rfl

theorem headTurn_failing_push (fails : codec.headTurn.outcome = some none) :
    (codec.push data).headTurn.outcome = some none := by
  cases found : findDoubleCrlf codec.buffer with
  | some marker =>
    have fits : marker + 4 ≤ codec.buffer.length := findSub_length found
    have same : findDoubleCrlf (codec.push data).buffer = some marker := findSub_append found data
    rw [headTurn_outcome found] at fails
    rw [headTurn_outcome same]
    simp only [push, List.take_append_of_le_length (show marker ≤ codec.buffer.length by omega),
      List.drop_append_of_le_length fits] at fails ⊢
    split
    · rfl
    · rename_i bound
      rw [if_neg bound] at fails
      cases parsed : (parseResponseHead codec.requestMethod codec.limits.toBodyLimits
        (codec.buffer.take marker)).toOption with
      | none => rfl
      | some head =>
        simp only [parsed, Option.elim_some] at fails ⊢
        have pushed := enterBody_push { codec with buffer := codec.buffer.drop (marker + 4) } head data
        simp only [push] at pushed
        rw [pushed]
        unfold headOutcome at *
        split at fails
        · rename_i empty
          split at fails
          · simp at fails
          · rename_i filled
            simp [empty, filled]
        · simp at fails
  | none =>
    have huge : (codec.buffer.length : Int) > codec.limits.maxHeaderBytes := by
      by_contra small
      simp [headTurn, found, small, Turn.outcome] at fails
    cases later : findDoubleCrlf (codec.push data).buffer with
    | some marker =>
      have beyond := doubleCrlf_beyond found later
      rw [headTurn_outcome later, if_pos (by simp only [push]; omega)]
    | none =>
      have longer : ((codec.push data).buffer.length : Int) > (codec.push data).limits.maxHeaderBytes := by
        simp only [push, List.length_append]
        omega
      simp only [headTurn, later, longer, if_true, failTurn, Turn.outcome]

theorem trailersTurn_failing_push (fails : codec.trailersTurn.outcome = some none) :
    (codec.push data).trailersTurn.outcome = some none := by
  have positive := codec.limits.headerBytes_pos
  by_cases blank : crlf <+: codec.buffer
  · obtain ⟨rest, buffer⟩ := blank
    have filled : rest ≠ [] := by
      rintro rfl
      simp [trailersTurn, finishTurn, ← buffer, crlf, Turn.outcome] at fails
    simp [trailersTurn, finishTurn_outcome, push, ← buffer, crlf, filled]
  · have stays (long : 2 ≤ codec.buffer.length) : ¬ crlf <+: (codec.push data).buffer := fun here =>
      blank (List.prefix_of_prefix_length_le here (List.prefix_append _ _) (by simpa [crlf] using long))
    cases found : findDoubleCrlf codec.buffer with
    | some marker =>
      have fits : marker + 4 ≤ codec.buffer.length := findSub_length found
      have same : findDoubleCrlf (codec.push data).buffer = some marker := findSub_append found data
      rw [trailersTurn_outcome blank found] at fails
      rw [trailersTurn_outcome (stays (by omega)) same]
      simp only [push, List.take_append_of_le_length (show marker ≤ codec.buffer.length by omega),
        List.drop_append_of_le_length fits] at fails ⊢
      split
      · rfl
      · rename_i bound
        rw [if_neg bound] at fails
        cases parsed : (parseHeaders (splitCrlf (codec.buffer.take marker))
          codec.limits.maxHeaderCount).toOption with
        | none => rfl
        | some trailers =>
          simp only [parsed, Option.elim_some] at fails ⊢
          split
          · rfl
          · rename_i allowed
            rw [if_neg allowed] at fails
            split at fails
            · simp at fails
            · rename_i filled
              simp [filled]
    | none =>
      have huge : (codec.buffer.length : Int) > codec.limits.maxHeaderBytes := by
        by_contra small
        simp [trailersTurn, blank, found, small, Turn.outcome] at fails
      cases later : findDoubleCrlf (codec.push data).buffer with
      | some marker =>
        have beyond := doubleCrlf_beyond found later
        rw [trailersTurn_outcome (stays (by omega)) later, if_pos (by simp only [push]; omega)]
      | none =>
        have longer : ((codec.push data).buffer.length : Int) >
            (codec.push data).limits.maxHeaderBytes := by
          simp only [push, List.length_append]
          omega
        simp only [trailersTurn, stays (by omega), later, longer, if_true, if_false, failTurn, Turn.outcome]

theorem turn_failing_push (fails : codec.turn.outcome = some none) (prompt : ¬ codec.Overrun) :
    (codec.push data).turn.outcome = some none := by
  have state : (codec.push data).state = codec.state := rfl
  unfold turn at *
  rw [state]
  cases here : codec.state with
  | head =>
    rw [here] at fails
    exact headTurn_failing_push fails
  | finalEmpty => rfl
  | fixedBody =>
    rw [here] at fails
    have filled : codec.buffer ≠ [] := fun empty => by simp [fixedBodyTurn, empty, Turn.outcome] at fails
    have pushed : (codec.push data).buffer ≠ [] := by simp [push, filled]
    simp only [fixedBodyTurn_outcome filled] at fails
    rw [fixedBodyTurn_outcome pushed]
    simp only [push, List.length_append]
    split at fails
    · simp at fails
    · split at fails
      · simp at fails
      · rw [if_neg (by omega), if_neg (by omega)]
  | chunkSize =>
    rw [here] at fails
    cases found : findCrlf codec.buffer with
    | some marker => simp only [chunkSizeTurn_push found, fails, Option.map_some, Option.map_none]
    | none =>
      have short : ¬ 128 < codec.buffer.length := fun long => prompt ⟨here, found, long⟩
      simp [chunkSizeTurn, found, short, Turn.outcome] at fails
  | chunkData =>
    rw [here] at fails
    have filled : codec.buffer ≠ [] := fun empty => by simp [chunkDataTurn, empty, Turn.outcome] at fails
    simp only [chunkDataTurn_outcome filled] at fails
    split at fails <;> simp at fails
  | chunkCrlf =>
    rw [here] at fails
    simp only [chunkCrlfTurn] at fails
    split at fails
    · simp [Turn.outcome] at fails
    · rename_i long
      have longer : ¬ (codec.push data).buffer.length < 2 := by simp only [push, List.length_append]; omega
      have same : (codec.push data).buffer.take 2 = codec.buffer.take 2 :=
        List.take_append_of_le_length (by omega)
      split at fails
      · rename_i ending
        simp only [chunkCrlfTurn, longer, same, ending, if_true, if_false, failTurn, Turn.outcome,
          ne_eq, not_false_eq_true]
      · simp [Turn.outcome] at fails
  | trailers =>
    rw [here] at fails
    exact trailersTurn_failing_push fails
  | untilEof =>
    rw [here] at fails
    have filled : codec.buffer ≠ [] := fun empty => by simp [untilEofTurn, empty, Turn.outcome] at fails
    have pushed : (codec.push data).buffer ≠ [] := by simp [push, filled]
    simp only [untilEofTurn_outcome filled] at fails
    rw [untilEofTurn_outcome pushed]
    simp only [push, List.length_append]
    split at fails
    · rw [if_pos (by omega)]
    · simp at fails
  | complete => simp [here, Turn.outcome] at fails

theorem push_filled (nonempty : data ≠ []) : (codec.push data).buffer ≠ [] := by simp [push, nonempty]

theorem swallow_waits (body : codec.state = .fixedBody ∨ codec.state = .chunkData) :
    codec.swallow.turn = .wait := by
  rcases body with state | state <;> simp [turn, swallow, state, fixedBodyTurn, chunkDataTurn]

/-- A body in progress takes its input in one turn or in two, with the same outcome. -/
theorem swallow_push (nonempty : data ≠ []) (body : codec.state = .fixedBody ∨ codec.state = .chunkData)
    (short : codec.buffer.length < codec.remaining) :
    (codec.push data).turn.outcome = (codec.swallow.push data).turn.outcome := by
  have first : (codec.push data).buffer ≠ [] := push_filled nonempty
  have second : (codec.swallow.push data).buffer ≠ [] := push_filled nonempty
  have total : codec.bodyReceived + codec.buffer.length + (codec.remaining - codec.buffer.length) =
      codec.bodyReceived + codec.remaining := by omega
  have dropped : (codec.buffer ++ data).drop codec.remaining =
      data.drop (codec.remaining - codec.buffer.length) := by
    rw [List.drop_append, List.drop_eq_nil_of_le (Nat.le_of_lt short), List.nil_append]
  rcases body with state | state
  · have opens : (codec.push data).turn = (codec.push data).fixedBodyTurn := by simp [turn, push, state]
    have opens' : (codec.swallow.push data).turn = (codec.swallow.push data).fixedBodyTurn := by
      simp [turn, push, swallow, state]
    rw [opens, opens', fixedBodyTurn_outcome first, fixedBodyTurn_outcome second]
    simp only [push, swallow, finished, List.nil_append, List.length_append, total]
    by_cases part : codec.buffer.length + data.length < codec.remaining
    · rw [if_pos part, if_pos (by omega), Nat.sub_sub, Nat.add_assoc]
    · have whole : ¬ data.length < codec.remaining - codec.buffer.length := by omega
      have ends : codec.buffer.length + data.length = codec.remaining ↔
          data.length = codec.remaining - codec.buffer.length := by omega
      simp only [part, whole, ends, if_false]
  · have opens : (codec.push data).turn = (codec.push data).chunkDataTurn := by simp [turn, push, state]
    have opens' : (codec.swallow.push data).turn = (codec.swallow.push data).chunkDataTurn := by
      simp [turn, push, swallow, state]
    rw [opens, opens', chunkDataTurn_outcome first, chunkDataTurn_outcome second]
    simp only [push, swallow, List.nil_append, List.length_append, dropped, total]
    by_cases part : codec.buffer.length + data.length < codec.remaining
    · rw [if_pos part, if_pos (by omega), Nat.sub_sub, Nat.add_assoc]
    · rw [if_neg part, if_neg (by omega)]

/-- So does a body that runs until the connection closes. -/
theorem untilEof_push (nonempty : data ≠ []) (state : codec.state = .untilEof) :
    (codec.push data).turn.outcome =
      (push { codec with buffer := [], bodyReceived := codec.bodyReceived + codec.buffer.length }
        data).turn.outcome := by
  have first : (codec.push data).buffer ≠ [] := push_filled nonempty
  have opens : (codec.push data).turn = (codec.push data).untilEofTurn := by simp [turn, push, state]
  rw [opens, untilEofTurn_outcome first]
  simp only [turn, push, state]
  rw [untilEofTurn_outcome (by simpa using nonempty)]
  simp only [List.nil_append, List.length_append, Nat.add_assoc]

/-- A finished response waits, and refuses what comes behind it. -/
theorem finished_accepts (codec : Http1UpstreamCodec) : codec.finished.acceptTurn = .wait := by
  simp [acceptTurn, finished, turn]

theorem finished_push_refused (codec : Http1UpstreamCodec) (nonempty : data ≠ []) :
    (codec.finished.push data).acceptTurn.outcome = some none := by
  simp [acceptTurn, finished, push, nonempty, failTurn, Turn.outcome]

end Push

/-- The states in which a turn takes whatever body bytes there are. -/
def Streams (codec : Http1UpstreamCodec) : Prop :=
  codec.state = .fixedBody ∨ codec.state = .chunkData ∨ codec.state = .untilEof

/-- A turn does the same with more input behind it, or it swallowed all its input. The input behind a
whole response is refused. -/
theorem Step.push {codec next : Http1UpstreamCodec} {events : List UpstreamEvent} {complete : Bool}
    (step : Step codec next events complete) {data : Bytes} (nonempty : data ≠ []) :
    Step (codec.push data) (next.push data) events complete ∨
      (∃ other : Http1UpstreamCodec, next = other.finished) ∧ codec.state ≠ .chunkSize ∧
        (codec.push data).turn.outcome = some none ∨
      (codec.Streams ∧ next.state = codec.state ∧ next.buffer = []) ∧ next.complete = codec.complete ∧
      next.turn = .wait ∧ (codec.push data).turn.outcome = (next.push data).turn.outcome := by
  cases step with
  | @head block rest head state buffer delimited bound parsed more =>
    have pushed := enterBody_push { codec with buffer := rest } head data
    refine .inl ?_
    rw [← pushed]
    exact @Step.head (codec.push data) block (rest ++ data) head state
      (by simp [Http1UpstreamCodec.push, buffer]) delimited
      bound parsed
        (by
          rw [show enterBody { codec.push data with buffer := rest ++ data } head = _ from pushed]
          exact more)
  | @headOnly block head state buffer delimited bound parsed empty =>
    refine .inr (.inl ⟨⟨codec, rfl⟩, by simp [state], ?_⟩)
    have found : findDoubleCrlf (codec.push data).buffer = some block.length :=
      findSub_eq_some_iff_exists.mpr
        ⟨block, data, by simp [Http1UpstreamCodec.push, buffer, doubleCrlf], rfl, delimited⟩
    have pushed : enterBody { codec.push data with buffer := data } head = _ :=
      enterBody_push { codec with buffer := [] } head data
    have opens : (codec.push data).turn = (codec.push data).headTurn := by
      simp [Http1UpstreamCodec.turn, Http1UpstreamCodec.push, state]
    have taken : (codec.push data).buffer.take block.length = block := by
      simp [Http1UpstreamCodec.push, buffer]
    have left : (codec.push data).buffer.drop (block.length + 4) = data := by
      simp [Http1UpstreamCodec.push, buffer, doubleCrlf]
    have parsed' : parseResponseHead (codec.push data).requestMethod
        (codec.push data).limits.toBodyLimits block = .ok head :=
      parsed
    have fits : ¬ ((block.length + 4 : Nat) : Int) > (codec.push data).limits.maxHeaderBytes :=
      Int.not_lt.mpr bound
    rw [opens, headTurn_outcome found, if_neg fits, taken, left, parsed']
    simp only [Except.toOption, Option.elim_some, pushed, headOutcome]
    rw [show ((enterBody { codec with buffer := [] } head).push data).state = .finalEmpty from empty,
      if_pos rfl, if_neg (push_filled nonempty)]
  | fixedPart state filled short =>
    exact .inr (.inr ⟨⟨.inl state, rfl, rfl⟩, rfl, swallow_waits (.inl state),
      swallow_push nonempty (.inl state) short⟩)
  | fixedLast state filled same =>
    refine .inr (.inl ⟨⟨_, rfl⟩, by simp [state], ?_⟩)
    have positive := List.length_pos_iff.mpr nonempty
    have opens : (codec.push data).turn = (codec.push data).fixedBodyTurn := by
      simp [Http1UpstreamCodec.turn, Http1UpstreamCodec.push, state]
    rw [opens, fixedBodyTurn_outcome (push_filled nonempty)]
    simp only [Http1UpstreamCodec.push, List.length_append]
    rw [if_neg (by omega), if_neg (by omega)]
  | @chunkSize line rest size state buffer delimited short parsed positive chunkBound bodyBound =>
    exact .inl (@Step.chunkSize (codec.push data) _ (rest ++ data) _ state
      (by simp [Http1UpstreamCodec.push, buffer])
      delimited short parsed positive chunkBound bodyBound)
  | @lastChunk line rest state buffer delimited short parsed chunkBound bodyBound =>
    exact .inl (@Step.lastChunk (codec.push data) _ (rest ++ data) state
      (by simp [Http1UpstreamCodec.push, buffer])
      delimited short parsed chunkBound bodyBound)
  | chunkPart state filled short =>
    exact .inr (.inr ⟨⟨.inr (.inl state), rfl, rfl⟩, rfl, swallow_waits (.inr state),
      swallow_push nonempty (.inr state) short⟩)
  | @chunkLast piece rest state filled buffer length =>
    exact .inl (@Step.chunkLast (codec.push data) _ (rest ++ data) state (push_filled nonempty)
      (by simp [Http1UpstreamCodec.push, buffer]) length)
  | @chunkCrlf rest state buffer =>
    exact .inl (@Step.chunkCrlf (codec.push data) (rest ++ data) state
      (by simp [Http1UpstreamCodec.push, buffer]))
  | noTrailers state buffer =>
    refine .inr (.inl ⟨⟨codec, rfl⟩, by simp [state], ?_⟩)
    simp [Http1UpstreamCodec.turn, trailersTurn, finishTurn_outcome, Http1UpstreamCodec.push, state,
      buffer, crlf, nonempty]
  | @trailers block trailers state buffer delimited noBlank bound parsed allowed =>
    refine .inr (.inl ⟨⟨codec, rfl⟩, by simp [state], ?_⟩)
    have found : findDoubleCrlf (codec.push data).buffer = some block.length :=
      findSub_eq_some_iff_exists.mpr
        ⟨block, data, by simp [Http1UpstreamCodec.push, buffer, doubleCrlf], rfl, delimited⟩
    have blank : ¬ crlf <+: (codec.push data).buffer := fun here => noBlank (buffer ▸
      List.prefix_of_prefix_length_le here (List.prefix_append _ _) (by simp [buffer, crlf, doubleCrlf]))
    have opens : (codec.push data).turn = (codec.push data).trailersTurn := by
      simp [Http1UpstreamCodec.turn, Http1UpstreamCodec.push, state]
    rw [opens, trailersTurn_outcome blank found]
    simp [Http1UpstreamCodec.push, buffer, doubleCrlf, parsed, Except.toOption, nonempty]
  | untilEof state filled bound =>
    exact .inr (.inr ⟨⟨.inr (.inr state), rfl, rfl⟩, rfl,
      by simp [Http1UpstreamCodec.turn, state, untilEofTurn], untilEof_push nonempty state⟩)

theorem acceptor_coherent : acceptor.Coherent Overrun where
  late_fails := fun codec isOver => by
    obtain ⟨state, absent, long⟩ := isOver
    have fails : codec.turn.outcome = some none := by
      simp [turn, state, chunkSizeTurn, absent, long, failTurn, Turn.outcome]
    change codec.acceptTurn.outcome = some none
    unfold acceptTurn
    split
    · rfl
    · exact fails
  fails := fun codec fails prompt data => by
    change codec.acceptTurn.outcome = some none at fails
    change (codec.push data).acceptTurn.outcome = some none
    unfold acceptTurn at *
    split
    · rfl
    · rename_i opened
      split at fails
      · rename_i extra
        exact absurd ⟨extra.1, by simp [push, extra.2]⟩ opened
      · exact turn_failing_push fails prompt
  goes_on := fun codec next events complete run data nonempty => by
    have step := acceptTurn_emit run
    have running : codec.complete = false := by
      by_contra isOver
      simp [acceptor, acceptTurn, Bool.not_eq_false _ ▸ isOver, step.filled, failTurn] at run
    have same : (acceptor.turn (acceptor.push codec data)).outcome = (codec.push data).turn.outcome :=
      congrArg Turn.outcome (acceptTurn_incomplete running)
    rcases step.push nonempty with pushed | ⟨⟨other, rfl⟩, notLine, refused⟩ |
      ⟨⟨streams, state, _⟩, still, idle, joined⟩
    · exact .inl (same.trans (by rw [pushed.turn]; rfl))
    · exact .inr ⟨other.finished_accepts,
        same.trans (refused.trans (other.finished_push_refused nonempty).symm),
        fun isOver => notLine isOver.1, fun isOver => by simpa [acceptor, push, finished] using isOver.1⟩
    · have running' : next.complete = false := still.trans running
      have notLine : codec.state ≠ .chunkSize := by
        rcases streams with state | state | state <;> simp [state]
      exact .inr ⟨(acceptTurn_incomplete running').trans idle,
        same.trans (joined.trans (congrArg Turn.outcome
          (acceptTurn_incomplete (show (next.push data).complete = false from running')).symm)),
        fun isOver => notLine isOver.1, fun isOver => notLine (state ▸ isOver.1)⟩

/-- A codec between two calls: a complete one has nothing buffered. -/
def Settled (codec : Http1UpstreamCodec) : Prop :=
  codec.closed = false ∧ (codec.complete = true → codec.state = .complete ∧ codec.buffer = [])

theorem Settled.acceptTurn {codec : Http1UpstreamCodec} (settled : codec.Settled) :
    codec.acceptTurn = codec.turn := by
  simp only [Http1UpstreamCodec.acceptTurn, ite_eq_right_iff, and_imp]
  intro complete filled
  exact absurd (settled.2 complete).2 filled

theorem Settled.running {codec : Http1UpstreamCodec} (settled : codec.Settled)
    (filled : codec.buffer ≠ []) :
    codec.complete = false := by
  by_contra isOver
  exact filled (settled.2 (by simpa using isOver)).2

theorem Step.settled {codec next : Http1UpstreamCodec} {events : List UpstreamEvent} {complete : Bool}
    (step : Step codec next events complete) (settled : codec.Settled) : next.Settled := by
  have running := settled.running step.filled
  refine ⟨step.frame.2.2.trans settled.1, fun isOver => ?_⟩
  cases step with
  | @head block rest head =>
    have same := (Progress.enterBody_frame { codec with buffer := rest } head).2.2.1
    exact absurd (same.symm.trans isOver) (by simp [running])
  | headOnly => exact ⟨rfl, rfl⟩
  | fixedLast => exact ⟨rfl, rfl⟩
  | noTrailers => exact ⟨rfl, rfl⟩
  | trailers => exact ⟨rfl, rfl⟩
  | _ => exact absurd isOver (by simp [running])

theorem acceptor_drain {codec : Http1UpstreamCodec} (settled : codec.Settled) (fuel completed : Nat)
    (past : List UpstreamEvent) :
    acceptor.drain 0 fuel codec completed past = decoder.drain 0 fuel codec completed past := by
  induction fuel generalizing codec completed past with
  | zero => rfl
  | succ fuel ih =>
    have same : acceptor.turn codec = decoder.turn codec := settled.acceptTurn
    simp only [Decoder.drain, same]
    cases turn : decoder.turn codec with
    | wait => rfl
    | fail error next => rfl
    | emit next events complete =>
      simp only [Nat.lt_irrefl, false_and, and_false, if_false]
      exact ih ((turn_eq_emit_iff.mp turn).settled settled) _ _

/-- What `feed` raises is what the loop of the acceptor fails with. -/
theorem feedAll_error_iff {codec : Http1UpstreamCodec} (settled : codec.Settled) (pieces : List Bytes) :
    (codec.feedAll pieces).2.isOk = false ↔
      (acceptor.feedAll codec (pieces.map fun data => (data, 0))).2.2 ≠ none := by
  induction pieces generalizing codec with
  | nil => simp [feedAll, Decoder.feedAll, Except.isOk, Except.toBool]
  | cons data pieces ih =>
    simp only [List.map_cons, feedAll, Decoder.feedAll]
    by_cases isOver : codec.complete = true
    · obtain ⟨state, buffer⟩ := settled.2 isOver
      by_cases empty : data = []
      · have idle : acceptor.turn codec = .wait := by simp [acceptor, acceptTurn, turn, state, buffer]
        have nothing : acceptor.feed 0 codec data = (codec, [], none) :=
          Decoder.feed_ok_iff.mpr ⟨by rw [empty, acceptor.push_nil]; exact .refl codec, idle⟩
        rw [nothing, ← ih settled]
        simp only [feed, isOver, empty, ne_eq, not_true_eq_false, if_true, if_false, or_true]
        rcases codec.feedAll pieces with ⟨last, error | more⟩ <;> rfl
      · have refused : acceptor.turn (acceptor.push codec data) =
            .fail (.proxyProtocol "response-complete" "bytes after upstream response")
              (codec.push data) := by
          simp [acceptor, acceptTurn, push, isOver, empty, failTurn]
        rw [Decoder.feed_fail (.refl _) refused]
        simp [feed, isOver, empty, raiseProxy, Except.isOk, Except.toBool]
    · have pushed : (codec.push data).Settled := ⟨settled.1, fun complete => absurd complete isOver⟩
      have loop : acceptor.feed 0 codec data = decoder.feed 0 codec data := acceptor_drain pushed _ _ _
      simp only [feed, settled.1, isOver, loop, Bool.false_eq_true, or_self, if_false]
      rcases run : decoder.feed 0 codec data with ⟨next, events, error | _⟩
      · have after : next.Settled := Decoder.Steps.preserves (P := Settled)
          (fun _ _ _ _ held turn => (turn_eq_emit_iff.mp turn).settled held) pushed
            (Decoder.feed_ok_steps run)
        rw [← ih after]
        rcases rest : next.feedAll pieces with ⟨last, error | more⟩ <;>
          simp [rest, Except.isOk, Except.toBool]
      · simp [Except.isOk, Except.toBool]

/-- Calls of `feed` on a fresh codec, one of which raises. -/
def Refuses (method : Text) (limits : UpstreamLimits) (pieces : List Bytes) : Prop :=
  (feedAll { requestMethod := method, limits := limits } pieces).2.isOk = false

/-- The bytes are malformed, or too large somewhere, or go on behind the response. -/
def Malformed (method : Text) (limits : UpstreamLimits) (wire : Bytes) : Prop :=
  acceptor.Gets acceptor.Failing (push { requestMethod := method, limits := limits } wire)

/-- One of the cuts falls into a chunk-size line that is longer than its limit, before its CRLF. -/
def CutInOverrun (method : Text) (limits : UpstreamLimits) (pieces : List Bytes) : Prop :=
  ∃ before, before <+: pieces ∧
    acceptor.Gets Overrun (push { requestMethod := method, limits := limits } before.flatten)

theorem fresh_waits (method : Text) (limits : UpstreamLimits) :
    acceptor.turn { requestMethod := method, limits := limits } = .wait := by
  have header := limits.headerBytes_pos
  simp [acceptor, acceptTurn, turn, headTurn, findDoubleCrlf, Search.findSub,
    Int.not_lt.mpr (Int.le_of_lt header)]

/-- A split is refused when its bytes are, or when a cut falls into an overrun line. -/
theorem refuses_iff (method : Text) (limits : UpstreamLimits) (pieces : List Bytes) :
    Refuses method limits pieces ↔
      Malformed method limits pieces.flatten ∨ CutInOverrun method limits pieces := by
  rw [Refuses, feedAll_error_iff ⟨rfl, by simp⟩ pieces]
  exact acceptor_coherent.feedAll_raises_iff (fresh_waits method limits) pieces

end Http1UpstreamCodec

/-- Whether bytes are accepted depends on how they are cut exactly when they are well formed and one
of the two splits, but not the other, cuts an overlong unfinished line: a request line or a
chunk-size line that has outgrown its limit, be it only by its CR. Both conditions are about the
bytes: that they are well formed is said of the whole input, and that a split cuts an overlong line
is said of the state in front of the cut. Nothing is assumed about the limits, the method or the
number of pieces. -/
theorem acceptance_under_fragmentation (limits : CodecLimits) (method : Text)
    (upstreamLimits : UpstreamLimits)
    (wire : Bytes) (first second : List Bytes) (firstSplit : first.flatten = wire)
    (secondSplit : second.flatten = wire) :
    ((Http1ServerCodec.Refuses limits first ↔ Http1ServerCodec.Refuses limits second) ↔
      (Http1ServerCodec.Malformed limits wire ∨
        (Http1ServerCodec.CutInOverrun limits first ↔ Http1ServerCodec.CutInOverrun limits second))) ∧
    ((Http1UpstreamCodec.Refuses method upstreamLimits first ↔
      Http1UpstreamCodec.Refuses method upstreamLimits second) ↔
      (Http1UpstreamCodec.Malformed method upstreamLimits wire ∨
        (Http1UpstreamCodec.CutInOverrun method upstreamLimits first ↔
          Http1UpstreamCodec.CutInOverrun method upstreamLimits second))) := by
  rw [Http1ServerCodec.refuses_iff, Http1ServerCodec.refuses_iff, Http1UpstreamCodec.refuses_iff,
    Http1UpstreamCodec.refuses_iff, firstSplit, secondSplit]
  constructor
  · by_cases malformed : Http1ServerCodec.Malformed limits wire <;> simp [malformed]
  · by_cases malformed : Http1UpstreamCodec.Malformed method upstreamLimits wire <;> simp [malformed]

/-- A split with no cut in a line and one with a cut between the CR and the LF of a request line that fits,
both within limits: the two agree. -/
theorem acceptance_under_fragmentation_get :
    let wire := ascii "GET / HTTP/1.1\r\nhost: a\r\n\r\n"
    let cut := [ascii "GET / HTTP/1.1\r", ascii "\nhost: a\r\n\r\n"]
    Http1ServerCodec.Refuses {} [wire] = Http1ServerCodec.Refuses {} cut ∧
      (Http1ServerCodec.Malformed {} wire ∨
        (Http1ServerCodec.CutInOverrun {} [wire] ↔ Http1ServerCodec.CutInOverrun {} cut)) := by
  intro wire cut
  have both : Http1ServerCodec.Refuses {} [wire] = Http1ServerCodec.Refuses {} cut := by
    simp only [Http1ServerCodec.Refuses, eq_iff_iff]
    decide
  exact ⟨both, (acceptance_under_fragmentation {} [] {} wire [wire] cut (by simp)
    (by decide)).1.mp (iff_of_eq both)⟩

/-- A request line of exactly the limit, and chunk-size lines of exactly 128 bytes in a request and in a
response, are accepted in one piece and refused with a cut between CR and LF. -/
theorem acceptance_depends_on_cut :
    let limits : CodecLimits := { maxRequestLine := 14 }
    let line := [ascii "GET / HTTP/1.1\r", ascii "\nhost: a\r\n\r\n"]
    let size := ascii "0;" ++ List.replicate 126 97
    let chunk := [ascii "POST / HTTP/1.1\r\nhost: a\r\ntransfer-encoding: chunked\r\n\r\n" ++ size ++ [13],
      10 :: crlf]
    let response := [ascii "HTTP/1.1 200 OK\r\ntransfer-encoding: chunked\r\n\r\n" ++ size ++ [13],
      10 :: crlf]
    ¬ (Http1ServerCodec.Refuses limits [line.flatten] ↔ Http1ServerCodec.Refuses limits line) ∧
      ¬ (Http1ServerCodec.Refuses {} [chunk.flatten] ↔ Http1ServerCodec.Refuses {} chunk) ∧
      ¬ (Http1UpstreamCodec.Refuses "GET".toList {} [response.flatten] ↔
        Http1UpstreamCodec.Refuses "GET".toList {} response) := by
  unfold Http1ServerCodec.Refuses Http1UpstreamCodec.Refuses
  rw [ascii_ofList, ascii_ofList, ascii_ofList, ascii_ofList, ascii_ofList]
  decide +kernel

end PccGateway
