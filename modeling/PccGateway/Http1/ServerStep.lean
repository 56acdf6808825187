import PccGateway.Http1.ServerCodec

namespace PccGateway
open Incremental Search

/-- The blank line that ends a head or a trailer section, with the CRLF of the line before it. -/
def doubleCrlf : Bytes := [13, 10, 13, 10]

namespace Http1ServerCodec

/-- The successful turns of the decoder, one constructor for each way through the loop. The buffer
is displayed as what the turn takes followed by what it leaves. -/
inductive Step : Http1ServerCodec → Http1ServerCodec → List Event → Bool → Prop
  | headWithBody {codec next : Http1ServerCodec} {block rest : Bytes} {head : RequestHead} :
      codec.state = .head → codec.buffer = block ++ doubleCrlf ++ rest → Delimited doubleCrlf block →
      ((block.length + 4 : Nat) : Int) ≤ codec.limits.maxHeaderBytes →
      parseHead { codec with buffer := rest } block = .ok (next, head, true) →
      Step codec next [.requestHead head] false
  | headOnly {codec next : Http1ServerCodec} {block rest : Bytes} {head : RequestHead} :
      codec.state = .head → codec.buffer = block ++ doubleCrlf ++ rest → Delimited doubleCrlf block →
      ((block.length + 4 : Nat) : Int) ≤ codec.limits.maxHeaderBytes →
      parseHead { codec with buffer := rest } block = .ok (next, head, false) →
      Step codec next [.requestHead head, .requestEnd []] true
  | fixedPart {codec : Http1ServerCodec} :
      codec.state = .fixedBody → codec.buffer ≠ [] → codec.buffer.length < codec.remaining →
      Step codec { codec with
        buffer := []
        remaining := codec.remaining - codec.buffer.length
        bodyReceived := codec.bodyReceived + codec.buffer.length } [.bodyChunk codec.buffer] false
  | fixedLast {codec : Http1ServerCodec} {data rest : Bytes} :
      codec.state = .fixedBody → codec.buffer ≠ [] → codec.buffer = data ++ rest →
      data.length = codec.remaining →
      Step codec (resetMessage { codec with buffer := rest })
        ((if data = [] then [] else [.bodyChunk data]) ++ [.requestEnd []]) true
  | chunkSize {codec : Http1ServerCodec} {line rest : Bytes} {size : Nat} :
      codec.state = .chunkSize → codec.buffer = line ++ crlf ++ rest → Delimited crlf line →
      line.length ≤ 128 → parseChunkSizeLine line = .ok size → 0 < size →
      (size : Int) ≤ codec.limits.maxChunkBytes →
      ((codec.bodyReceived + size : Nat) : Int) ≤ codec.limits.maxBodyBytes →
      Step codec { codec with buffer := rest, state := .chunkData, remaining := size } [] false
  | lastChunk {codec : Http1ServerCodec} {line rest : Bytes} :
      codec.state = .chunkSize → codec.buffer = line ++ crlf ++ rest → Delimited crlf line →
      line.length ≤ 128 → parseChunkSizeLine line = .ok 0 → 0 ≤ codec.limits.maxChunkBytes →
      (codec.bodyReceived : Int) ≤ codec.limits.maxBodyBytes →
      Step codec { codec with buffer := rest, state := .trailers } [] false
  | chunkData {codec : Http1ServerCodec} {data rest : Bytes} :
      codec.state = .chunkData → codec.buffer = data ++ crlf ++ rest → data.length = codec.remaining →
      Step codec { codec with
        buffer := rest
        bodyReceived := codec.bodyReceived + codec.remaining
        remaining := 0
        state := .chunkSize } [.bodyChunk data] false
  | noTrailers {codec : Http1ServerCodec} {rest : Bytes} :
      codec.state = .trailers → codec.buffer = crlf ++ rest →
      Step codec (resetMessage { codec with buffer := rest }) [.requestEnd []] true
  | trailers {codec : Http1ServerCodec} {block rest : Bytes} {trailers : List Header} :
      codec.state = .trailers → codec.buffer = block ++ doubleCrlf ++ rest → Delimited doubleCrlf block →
      ¬ crlf <+: block ++ doubleCrlf →
      ((block.length + 4 : Nat) : Int) ≤ codec.limits.maxHeaderBytes →
      parseHeaders (splitCrlf block) codec.limits.maxHeaderCount = .ok trailers →
      forbiddenTrailers.any (hasField trailers) = false →
      Step codec (resetMessage { codec with buffer := rest }) [.requestEnd trailers] true

theorem Step.of_headTurn {codec next : Http1ServerCodec} {events : List Event} {complete : Bool}
    (state : codec.state = .head) (turn : codec.headTurn = .emit next events complete) :
    Step codec next events complete := by
  unfold headTurn at turn
  split at turn
  · simp only [failTurn] at turn
    split at turn <;> [cases turn; (split at turn <;> cases turn)]
  · rename_i marker found
    obtain ⟨block, rest, buffer, rfl, delimited⟩ := findSub_eq_some_iff_exists.mp found
    have taken : codec.buffer.drop (block.length + 4) = rest := by simp [buffer]
    have given : codec.buffer.take block.length = block := by simp [buffer]
    simp only [failTurn] at turn
    split at turn
    · cases turn
    · rename_i bound
      rw [taken, given] at turn
      split at turn
      · cases turn
      · rename_i parsed
        cases turn
        exact .headWithBody state buffer delimited (by omega) parsed
      · rename_i parsed
        cases turn
        exact .headOnly state buffer delimited (by omega) parsed

theorem Step.of_fixedBodyTurn {codec next : Http1ServerCodec} {events : List Event} {complete : Bool}
    (state : codec.state = .fixedBody) (turn : codec.fixedBodyTurn = .emit next events complete) :
    Step codec next events complete := by
  unfold fixedBodyTurn at turn
  split at turn
  · cases turn
  · rename_i nonempty
    have positive : 0 < codec.buffer.length := List.length_pos_iff.mpr nonempty
    by_cases short : codec.buffer.length < codec.remaining
    · have all : min codec.remaining codec.buffer.length = codec.buffer.length := by omega
      simp only [all, show codec.remaining - codec.buffer.length ≠ 0 by omega, if_false, positive, if_true,
        List.drop_length, List.take_length] at turn
      cases turn
      exact .fixedPart state nonempty short
    · have all : min codec.remaining codec.buffer.length = codec.remaining := by omega
      simp only [all, Nat.sub_self, if_true] at turn
      cases turn
      have length : (codec.buffer.take codec.remaining).length = codec.remaining := by simp; omega
      have step := @Step.fixedLast codec _ (codec.buffer.drop codec.remaining) state nonempty
        (List.take_append_drop _ _).symm length
      by_cases zero : codec.remaining = 0
      · simpa [zero, resetMessage] using step
      · have kept : codec.buffer.take codec.remaining ≠ [] := fun empty =>
          zero (by simpa [empty] using length.symm)
        simpa [resetMessage, kept, Nat.pos_of_ne_zero zero] using step

theorem Step.of_chunkSizeTurn {codec next : Http1ServerCodec} {events : List Event} {complete : Bool}
    (state : codec.state = .chunkSize) (turn : codec.chunkSizeTurn = .emit next events complete) :
    Step codec next events complete := by
  unfold chunkSizeTurn at turn
  simp only [failTurn] at turn
  split at turn
  · split at turn <;> cases turn
  · rename_i marker found
    obtain ⟨line, rest, buffer, rfl, delimited⟩ := findSub_eq_some_iff_exists.mp found
    have taken : codec.buffer.drop (line.length + 2) = rest := by simp [buffer]
    have given : codec.buffer.take line.length = line := by simp [buffer]
    rw [taken, given] at turn
    split at turn
    · cases turn
    · split at turn
      · cases turn
      · rename_i size parsed
        split at turn
        · cases turn
        · split at turn
          · cases turn
          · split at turn
            · cases turn
              subst size
              exact .lastChunk state buffer delimited (by omega) parsed (by omega) (by omega)
            · cases turn
              exact .chunkSize state buffer delimited (by omega) parsed (by omega) (by omega) (by omega)

theorem Step.of_chunkDataTurn {codec next : Http1ServerCodec} {events : List Event} {complete : Bool}
    (state : codec.state = .chunkData) (turn : codec.chunkDataTurn = .emit next events complete) :
    Step codec next events complete := by
  unfold chunkDataTurn at turn
  simp only [failTurn] at turn
  split at turn
  · cases turn
  · split at turn
    · cases turn
    · rename_i long ending
      cases turn
      have ending : (codec.buffer.drop codec.remaining).take 2 = crlf := by simpa using ending
      refine .chunkData state ?_ (by simp; omega)
      rw [← ending, List.append_assoc, ← List.drop_drop, List.take_append_drop, List.take_append_drop]

theorem Step.of_trailersTurn {codec next : Http1ServerCodec} {events : List Event} {complete : Bool}
    (state : codec.state = .trailers) (turn : codec.trailersTurn = .emit next events complete) :
    Step codec next events complete := by
  unfold trailersTurn at turn
  simp only [failTurn] at turn
  split at turn
  · rename_i here
    obtain ⟨rest, buffer⟩ := here
    cases turn
    rw [← buffer]
    exact .noTrailers state buffer.symm
  · rename_i absent
    split at turn
    · split at turn <;> cases turn
    · rename_i marker found
      obtain ⟨block, rest, buffer, rfl, delimited⟩ := findSub_eq_some_iff_exists.mp found
      have taken : codec.buffer.drop (block.length + 4) = rest := by simp [buffer]
      have given : codec.buffer.take block.length = block := by simp [buffer]
      rw [taken, given] at turn
      split at turn
      · cases turn
      · split at turn
        · cases turn
        · rename_i trailers parsed
          split at turn
          · cases turn
          · rename_i allowed
            cases turn
            refine .trailers state buffer delimited ?_ (by omega) parsed (by simpa using allowed)
            intro here
            rw [buffer] at absent
            exact absent (here.trans (List.prefix_append _ _))

theorem Step.turn {codec next : Http1ServerCodec} {events : List Event} {complete : Bool}
    (step : Step codec next events complete) : codec.turn = .emit next events complete := by
  cases step with
  | @headWithBody _ block rest head state buffer delimited bound parsed =>
    have found : findDoubleCrlf codec.buffer = some block.length :=
      findSub_eq_some_iff_exists.mpr ⟨block, rest, buffer, rfl, delimited⟩
    have taken : codec.buffer.drop (block.length + 4) = rest := by simp [buffer, doubleCrlf]
    have given : codec.buffer.take block.length = block := by simp [buffer]
    simp only [state] at parsed
    simp only [Http1ServerCodec.turn, state, headTurn, found, Int.not_lt.mpr bound, if_false, taken,
      given, parsed]
  | @headOnly _ block rest head state buffer delimited bound parsed =>
    have found : findDoubleCrlf codec.buffer = some block.length :=
      findSub_eq_some_iff_exists.mpr ⟨block, rest, buffer, rfl, delimited⟩
    have taken : codec.buffer.drop (block.length + 4) = rest := by simp [buffer, doubleCrlf]
    have given : codec.buffer.take block.length = block := by simp [buffer]
    simp only [state] at parsed
    simp only [Http1ServerCodec.turn, state, headTurn, found, Int.not_lt.mpr bound, if_false, taken,
      given, parsed]
  | fixedPart state nonempty short =>
    have positive : 0 < codec.buffer.length := List.length_pos_iff.mpr nonempty
    have all : min codec.remaining codec.buffer.length = codec.buffer.length := by omega
    simp [Http1ServerCodec.turn, state, fixedBodyTurn, nonempty, all,
      show codec.remaining - codec.buffer.length ≠ 0 by omega]
  | @fixedLast data rest state nonempty buffer length =>
    have all : min codec.remaining codec.buffer.length = codec.remaining := by simp [buffer]; omega
    have taken : codec.buffer.drop codec.remaining = rest := by simp [buffer, ← length]
    have given : codec.buffer.take codec.remaining = data := by simp [buffer, ← length]
    have kept : 0 < codec.remaining ↔ data ≠ [] := by rw [← length, List.length_pos_iff]
    simp only [Http1ServerCodec.turn, state, fixedBodyTurn, nonempty, all, Nat.sub_self, if_true,
      if_false, taken, given, kept, ne_eq, ite_not, resetMessage]
  | @chunkSize line rest size state buffer delimited short parsed positive chunkBound bodyBound =>
    have found : findCrlf codec.buffer = some line.length :=
      findSub_eq_some_iff_exists.mpr ⟨line, rest, buffer, rfl, delimited⟩
    have taken : codec.buffer.drop (line.length + 2) = rest := by simp [buffer, crlf]
    have given : codec.buffer.take line.length = line := by simp [buffer]
    simp only [Http1ServerCodec.turn, state, chunkSizeTurn, found, not_lt.mpr short, if_false, taken,
      given, parsed, gt_iff_lt,
      Int.not_lt.mpr chunkBound, Int.not_lt.mpr bodyBound, show size ≠ 0 by omega]
  | @lastChunk line rest state buffer delimited short parsed chunkBound bodyBound =>
    have found : findCrlf codec.buffer = some line.length :=
      findSub_eq_some_iff_exists.mpr ⟨line, rest, buffer, rfl, delimited⟩
    have taken : codec.buffer.drop (line.length + 2) = rest := by simp [buffer, crlf]
    have given : codec.buffer.take line.length = line := by simp [buffer]
    simp only [Http1ServerCodec.turn, state, chunkSizeTurn, found, not_lt.mpr short, if_false, taken,
      given, parsed, gt_iff_lt,
      Int.natCast_zero, Nat.add_zero, Int.not_lt.mpr chunkBound, Int.not_lt.mpr bodyBound, if_true]
  | @chunkData data rest state buffer length =>
    have long : ¬ codec.buffer.length < codec.remaining + 2 := by simp [buffer, crlf]; omega
    have ending : (codec.buffer.drop codec.remaining).take 2 = crlf := by simp [buffer, ← length, crlf]
    have taken : codec.buffer.drop (codec.remaining + 2) = rest := by simp [buffer, ← length, crlf]
    have given : codec.buffer.take codec.remaining = data := by simp [buffer, ← length]
    simp only [Http1ServerCodec.turn, state, chunkDataTurn, long, if_false, ending, ne_eq,
      not_true_eq_false, taken, given]
  | @noTrailers rest state buffer =>
    have here : crlf <+: codec.buffer := ⟨rest, buffer.symm⟩
    have taken : codec.buffer.drop 2 = rest := by simp [buffer, crlf]
    simp only [Http1ServerCodec.turn, state, trailersTurn, here, if_true, taken]
  | @trailers block rest trailers state buffer delimited noBlank bound parsed allowed =>
    have absent : ¬ crlf <+: codec.buffer := by
      intro here
      rw [buffer] at here
      exact noBlank (List.prefix_of_prefix_length_le here (List.prefix_append _ _)
        (by simp [crlf, doubleCrlf]))
    have found : findDoubleCrlf codec.buffer = some block.length :=
      findSub_eq_some_iff_exists.mpr ⟨block, rest, buffer, rfl, delimited⟩
    have taken : codec.buffer.drop (block.length + 4) = rest := by simp [buffer, doubleCrlf]
    have given : codec.buffer.take block.length = block := by simp [buffer]
    simp only [Http1ServerCodec.turn, state, trailersTurn, absent, if_false, found,
      Int.not_lt.mpr bound, taken, given, parsed, allowed, Bool.false_eq_true]

/-- What one turn can do, said once. -/
theorem turn_eq_emit_iff {codec next : Http1ServerCodec} {events : List Event} {complete : Bool} :
    codec.turn = .emit next events complete ↔ Step codec next events complete := by
  constructor
  · intro run
    unfold Http1ServerCodec.turn at run
    split at run <;> rename_i state
    · exact .of_headTurn state run
    · exact .of_fixedBodyTurn state run
    · exact .of_chunkSizeTurn state run
    · exact .of_chunkDataTurn state run
    · exact .of_trailersTurn state run
  · exact Step.turn

end Http1ServerCodec
end PccGateway
