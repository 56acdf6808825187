import PccGateway.Http1.Fragmentation
import PccGateway.Http1.Framing
import PccGateway.Http1.Pumping

namespace PccGateway
open Incremental

theorem requestContentLength_le {maxBodyBytes length : Int} {headers : List Header}
    (run : requestContentLength maxBodyBytes headers = .ok length) (nonneg : 0 ≤ length) :
    length ≤ maxBodyBytes := by
  unfold requestContentLength at run
  split at run
  · cases run
    omega
  · simp only [ite_raiseHttp1_eq_ok, bind_eq_ok] at run
    obtain ⟨_, _, _, value, _, bound, result⟩ := run
    cases result
    omega
  · simp [raiseHttp1] at run

theorem parseRequestHead_contentLength_le {limits : CodecLimits} {block : Bytes} {head : RequestHead}
    (run : parseRequestHead limits block = .ok head) (positive : 0 < head.contentLength) :
    head.contentLength ≤ limits.maxBodyBytes := by
  obtain ⟨method, target, version, headers, length, chunked, expectation, _, _, _, lengthRun, _, _, rfl⟩ :=
    parseRequestHead_eq_ok_iff.mp run
  simp only at positive ⊢
  split at positive
  · rename_i given
    rw [if_pos given]
    exact requestContentLength_le lengthRun (Int.le_of_lt positive)
  · cases positive

/-- The body bytes delivered for each message, the latest message first. -/
def tallyBody : List Nat → Event → List Nat
  | bodies, .requestHead _ => 0 :: bodies
  | body :: bodies, .bodyChunk data => (body + data.length) :: bodies
  | [], .bodyChunk data => [data.length]
  | bodies, .requestEnd _ => bodies

def messageBodies (events : List Event) : List Nat := events.foldl tallyBody []

namespace Http1ServerCodec

/-- What the codec may hold back: a head or a trailer section, a chunk-size line, or a chunk without
its last byte. -/
def retention (limits : CodecLimits) : Int := max (max limits.maxHeaderBytes 128) (limits.maxChunkBytes + 1)

/-- How the state variables fit together, at every turn. -/
structure Consistent (codec : Http1ServerCodec) : Prop where
  head : codec.state = .head → codec.remaining = 0 ∧ codec.bodyReceived = 0
  fixedBody : codec.state = .fixedBody → 0 < codec.remaining
  chunkData : codec.state = .chunkData →
    0 < codec.remaining ∧ (codec.remaining : Int) ≤ codec.limits.maxChunkBytes
  body : ((codec.bodyReceived + codec.remaining : Nat) : Int) ≤ max 0 codec.limits.maxBodyBytes

theorem Consistent.fresh (limits : CodecLimits) : Consistent { limits := limits } where
  head := fun _ => ⟨rfl, rfl⟩
  fixedBody := nofun
  chunkData := nofun
  body := Int.le_max_left ..

theorem Consistent.push {codec : Http1ServerCodec} (consistent : codec.Consistent) (data : Bytes) :
    (codec.push data).Consistent :=
  ⟨consistent.head, consistent.fixedBody, consistent.chunkData, consistent.body⟩

theorem Consistent.reset (codec : Http1ServerCodec) : codec.resetMessage.Consistent where
  head := fun _ => ⟨rfl, rfl⟩
  fixedBody := nofun
  chunkData := nofun
  body := Int.le_max_left ..

theorem Consistent.enterBody {codec : Http1ServerCodec} {head : RequestHead} (consistent : codec.Consistent)
    (state : codec.state = .head)
    (bound : 0 < head.contentLength → head.contentLength ≤ codec.limits.maxBodyBytes) :
    (codec.enterBody head).1.Consistent := by
  obtain ⟨remaining, received⟩ := consistent.head state
  unfold Http1ServerCodec.enterBody
  split
  · exact ⟨nofun, nofun, nofun, consistent.body⟩
  · split
    · rename_i positive
      have bound := bound positive
      refine ⟨nofun, fun _ => ?_, nofun, ?_⟩
      · simp only
        omega
      · simp only [received, Nat.zero_add, Int.toNat_of_nonneg (Int.le_of_lt positive)]
        omega
    · exact .reset codec

theorem Step.consistent {codec next : Http1ServerCodec} {events : List Event} {complete : Bool}
    (step : Step codec next events complete) (consistent : codec.Consistent) : next.Consistent := by
  have body := consistent.body
  cases step with
  | @headWithBody _ block rest head state buffer delimited bound parsed =>
    obtain ⟨run, entered⟩ := parseHead_eq_ok_iff.mp parsed
    have kept : ({ codec with buffer := rest } : Http1ServerCodec).Consistent :=
      ⟨consistent.head, consistent.fixedBody, consistent.chunkData, consistent.body⟩
    simpa only [entered] using kept.enterBody state (parseRequestHead_contentLength_le run)
  | @headOnly _ block rest head state buffer delimited bound parsed =>
    obtain ⟨run, entered⟩ := parseHead_eq_ok_iff.mp parsed
    have kept : ({ codec with buffer := rest } : Http1ServerCodec).Consistent :=
      ⟨consistent.head, consistent.fixedBody, consistent.chunkData, consistent.body⟩
    simpa only [entered] using kept.enterBody state (parseRequestHead_contentLength_le run)
  | fixedPart state nonempty short =>
    refine ⟨fun other => ?_, fun _ => ?_, fun other => ?_, ?_⟩
    · simp [state] at other
    · simp only
      omega
    · simp [state] at other
    · simp only
      omega
  | fixedLast => exact .reset _
  | chunkSize state buffer delimited short parsed positive chunkBound bodyBound =>
    exact ⟨nofun, nofun, fun _ => ⟨positive, chunkBound⟩, by simp only; omega⟩
  | lastChunk => exact ⟨nofun, nofun, nofun, body⟩
  | chunkData => exact ⟨nofun, nofun, nofun, by simpa using body⟩
  | noTrailers => exact .reset _
  | trailers => exact .reset _

theorem Step.buffer_le {codec next : Http1ServerCodec} {events : List Event} {complete : Bool}
    (step : Step codec next events complete) : next.buffer.length ≤ codec.buffer.length := by
  have below := step.size_lt
  have above := codec.size_le
  have least : 2 * next.buffer.length ≤ next.size := Nat.le_add_right _ _
  omega

theorem headTurn_waits {codec : Http1ServerCodec} (waits : codec.headTurn = .wait) :
    (codec.buffer.length : Int) ≤ codec.limits.maxHeaderBytes := by
  unfold headTurn failTurn at waits
  split at waits
  · split at waits
    · cases waits
    · omega
  · split at waits
    · cases waits
    · dsimp only at waits
      split at waits <;> cases waits

theorem fixedBodyTurn_waits {codec : Http1ServerCodec} (waits : codec.fixedBodyTurn = .wait) :
    codec.buffer = [] := by
  unfold fixedBodyTurn at waits
  split at waits
  · assumption
  · dsimp only at waits
    split at waits <;> cases waits

theorem chunkSizeTurn_waits {codec : Http1ServerCodec} (waits : codec.chunkSizeTurn = .wait) :
    codec.buffer.length ≤ 128 := by
  unfold chunkSizeTurn failTurn at waits
  split at waits
  · split at waits
    · cases waits
    · omega
  · split at waits
    · cases waits
    · dsimp only at waits
      repeat' split at waits
      all_goals cases waits

theorem chunkDataTurn_waits {codec : Http1ServerCodec} (waits : codec.chunkDataTurn = .wait) :
    codec.buffer.length < codec.remaining + 2 := by
  unfold chunkDataTurn failTurn at waits
  split at waits
  · assumption
  · split at waits <;> cases waits

theorem trailersTurn_waits {codec : Http1ServerCodec} (waits : codec.trailersTurn = .wait) :
    (codec.buffer.length : Int) ≤ codec.limits.maxHeaderBytes := by
  unfold trailersTurn failTurn at waits
  split at waits
  · cases waits
  · split at waits
    · split at waits
      · cases waits
      · omega
    · dsimp only at waits
      repeat' split at waits
      all_goals cases waits

/-- A codec that waits for input holds no more than it may. -/
theorem Consistent.waiting {codec : Http1ServerCodec} (consistent : codec.Consistent)
    (waits : codec.turn = .wait) :
    (codec.buffer.length : Int) ≤ retention codec.limits ∧
    (codec.state = .fixedBody → codec.buffer = []) := by
  unfold Http1ServerCodec.turn at waits
  unfold retention
  cases state : codec.state <;> simp only [state] at waits
  case head =>
    have held := headTurn_waits waits
    exact ⟨by omega, nofun⟩
  case fixedBody =>
    have empty := fixedBodyTurn_waits waits
    exact ⟨by simp only [empty, List.length_nil]; omega, fun _ => empty⟩
  case chunkSize =>
    have held := chunkSizeTurn_waits waits
    exact ⟨by omega, nofun⟩
  case chunkData =>
    have held := chunkDataTurn_waits waits
    have chunk := (consistent.chunkData state).2
    exact ⟨by omega, nofun⟩
  case trailers =>
    have held := trailersTurn_waits waits
    exact ⟨by omega, nofun⟩

/-- No message has been given more body bytes than one may have. -/
def BodiesWithin (limits : CodecLimits) (events : List Event) : Prop :=
  ∀ bytes ∈ messageBodies events, (bytes : Int) ≤ max 0 limits.maxBodyBytes

theorem messageBodies_append (events more : List Event) :
    messageBodies (events ++ more) = more.foldl tallyBody (messageBodies events) := List.foldl_append ..

theorem BodiesWithin.head {limits : CodecLimits} {events : List Event} (within : BodiesWithin limits events)
    (head : RequestHead) : BodiesWithin limits (events ++ [.requestHead head]) := by
  intro bytes member
  rw [messageBodies_append] at member
  rcases List.mem_cons.mp member with rfl | later
  · exact Int.le_max_left ..
  · exact within bytes later

theorem BodiesWithin.ended {limits : CodecLimits} {events : List Event}
    (within : BodiesWithin limits events)
    (trailers : List Header) : BodiesWithin limits (events ++ [.requestEnd trailers]) := by
  intro bytes member
  rw [messageBodies_append] at member
  cases bodies : messageBodies events <;> rw [bodies] at member <;> exact within bytes (bodies ▸ member)

/-- The tally of the events that a codec has returned, next to its own count of the open message. -/
structure Tallied (codec : Http1ServerCodec) (events : List Event) : Prop where
  within : BodiesWithin codec.limits events
  current : codec.state ≠ .head → (messageBodies events).head? = some codec.bodyReceived

theorem Tallied.fresh (limits : CodecLimits) : Tallied { limits := limits } [] where
  within := nofun
  current := fun busy => absurd rfl busy

theorem enterBody_bodyReceived {codec : Http1ServerCodec} (head : RequestHead)
    (consistent : codec.Consistent)
    (state : codec.state = .head) : (codec.enterBody head).1.bodyReceived = 0 := by
  unfold enterBody
  split
  · exact (consistent.head state).2
  · split
    · exact (consistent.head state).2
    · rfl

theorem enterBody_state {codec next : Http1ServerCodec} {head : RequestHead}
    (none : codec.enterBody head = (next, false)) :
    next.state = .head := by
  unfold enterBody at none
  split at none
  · cases none
  · split at none
    · cases none
    · cases none
      rfl

/-- A further piece of the open message. -/
theorem Tallied.chunk {codec : Http1ServerCodec} {events : List Event} (tallied : codec.Tallied events)
    (state : codec.state ≠ .head) (data : Bytes)
    (room : ((codec.bodyReceived + data.length : Nat) : Int) ≤ max 0 codec.limits.maxBodyBytes) :
    (messageBodies (events ++ [.bodyChunk data])).head? = some (codec.bodyReceived + data.length) ∧
      BodiesWithin codec.limits (events ++ [.bodyChunk data]) := by
  obtain ⟨rest, bodies⟩ : ∃ rest, messageBodies events = codec.bodyReceived :: rest :=
    List.head?_eq_some_iff.mp (tallied.current state)
  have within := tallied.within
  unfold BodiesWithin at within ⊢
  rw [bodies] at within
  simp only [messageBodies_append, bodies, List.foldl_cons, List.foldl_nil, tallyBody,
    List.head?_cons, true_and]
  intro bytes member
  rcases List.mem_cons.mp member with rfl | later
  · exact room
  · exact within bytes (List.mem_cons_of_mem _ later)

theorem Step.tallied {codec next : Http1ServerCodec} {past events : List Event} {complete : Bool}
    (step : Step codec next events complete) (consistent : codec.Consistent)
    (tallied : codec.Tallied past) :
    next.Tallied (past ++ events) := by
  have limits := step.limits
  have body := consistent.body
  cases step with
  | @headWithBody _ block rest head state buffer delimited bound parsed =>
    obtain ⟨run, entered⟩ := parseHead_eq_ok_iff.mp parsed
    have kept : ({ codec with buffer := rest } : Http1ServerCodec).Consistent :=
      ⟨consistent.head, consistent.fixedBody, consistent.chunkData, consistent.body⟩
    have received := enterBody_bodyReceived head kept state
    rw [entered] at received
    refine ⟨limits ▸ tallied.within.head head, fun _ => ?_⟩
    rw [messageBodies_append, received]
    rfl
  | @headOnly _ block rest head state buffer delimited bound parsed =>
    have idle := enterBody_state (parseHead_eq_ok_iff.mp parsed).2
    have within := (tallied.within.head head).ended []
    rw [List.append_assoc] at within
    exact ⟨limits ▸ within, fun busy => absurd idle busy⟩
  | fixedPart state nonempty short =>
    obtain ⟨current, within⟩ := tallied.chunk (by simp [state]) codec.buffer (by omega)
    exact ⟨within, fun _ => current⟩
  | @fixedLast data rest state nonempty buffer length =>
    refine ⟨?_, fun busy => absurd rfl busy⟩
    split
    · exact tallied.within.ended []
    · have within := (tallied.chunk (by simp [state]) data (by omega)).2.ended []
      rwa [List.append_assoc] at within
  | chunkSize state =>
    rw [List.append_nil]
    exact ⟨tallied.within, fun _ => tallied.current (by simp [state])⟩
  | lastChunk state =>
    rw [List.append_nil]
    exact ⟨tallied.within, fun _ => tallied.current (by simp [state])⟩
  | @chunkData data rest state buffer length =>
    obtain ⟨current, within⟩ := tallied.chunk (by simp [state]) data (by omega)
    exact ⟨within, fun _ => by rw [current, length]⟩
  | noTrailers => exact ⟨tallied.within.ended [], fun busy => absurd rfl busy⟩
  | @trailers block rest trailers => exact ⟨tallied.within.ended trailers, fun busy => absurd rfl busy⟩

/-- What holds of a codec between two calls. -/
structure Sound (limits : CodecLimits) (codec : Http1ServerCodec) (events : List Event) : Prop where
  limits : codec.limits = limits
  consistent : codec.Consistent
  tallied : codec.Tallied events

theorem Sound.feed {limits : CodecLimits} {codec next : Http1ServerCodec} {past events : List Event}
    {data : Bytes} {quota : Nat} (sound : Sound limits codec past)
    (run : decoder.feed quota codec data = (next, events, none)) :
    Sound limits next (past ++ events) ∧ next.buffer.length ≤ codec.buffer.length + data.length := by
  have started : Sound limits (codec.push data) past :=
    ⟨sound.limits, sound.consistent.push data, sound.tallied.within, sound.tallied.current⟩
  have steps : decoder.Steps (codec.push data) next events := Decoder.feed_ok_steps run
  constructor
  · refine steps.invariant (P := fun codec events => Sound limits codec events) ?_ started
    intro codec next past new complete sound turn
    have step : Step codec next new complete := turn_eq_emit_iff.mp turn
    exact ⟨step.limits.trans sound.limits, step.consistent sound.consistent,
      step.tallied sound.consistent sound.tallied⟩
  · have shrinks := steps.preserves (P := fun next => next.buffer.length ≤ (codec.push data).buffer.length)
      (fun s s' new complete held turn => (turn_eq_emit_iff.mp turn).buffer_le.trans held) le_rfl
    simpa [push] using shrinks

theorem Sound.feedAll {limits : CodecLimits} {codec last : Http1ServerCodec} {past events : List Event}
    {calls : List (Bytes × Int)} (sound : Sound limits codec past)
    (run : codec.feedAll calls = (last, .ok events)) :
    Sound limits last (past ++ events) := by
  induction calls generalizing codec past events with
  | nil =>
    cases run
    simpa using sound
  | cons call calls ih =>
    obtain ⟨next, first, rest, firstRun, restRun, rfl⟩ := feedAll_cons_eq_ok run
    rw [← List.append_assoc]
    exact ih (sound.feed (feed_eq_ok_iff.mp firstRun).2.2).1 restRun

theorem Sound.fresh (limits : CodecLimits) : Sound limits { limits := limits } [] :=
  ⟨rfl, .fresh limits, .fresh limits⟩

theorem feedAll_waits {codec last : Http1ServerCodec} {events : List Event} {pieces : List Bytes}
    (run : codec.feedAll (pieces.map fun data => (data, 0)) = (last, .ok events))
    (waits : codec.turn = .wait) :
    last.turn = .wait := by
  induction pieces generalizing codec events with
  | nil =>
    cases run
    exact waits
  | cons data pieces ih =>
    obtain ⟨next, first, rest, firstRun, restRun, rfl⟩ := feedAll_cons_eq_ok run
    exact ih restRun (Decoder.feed_ok_iff.mp (feed_eq_ok_iff.mp firstRun).2.2).2

/-- After any unlimited calls that succeed the codec holds a bounded number of bytes, its state
variables fit together, and no message was given more body bytes than `max_body_bytes`. What is
assumed is that no call has raised: one that has raised leaves a codec that is not used again.
Nothing is assumed about the limits, which may be zero or negative, nor about the sizes of the
pieces. -/
theorem unlimited_memory_bound (limits : CodecLimits) (pieces : List Bytes) (codec : Http1ServerCodec)
    (events : List Event)
    (run : feedAll { limits := limits } (pieces.map fun data => (data, 0)) = (codec, .ok events)) :
    (codec.buffer.length : Int) ≤ max (max limits.maxHeaderBytes 128) (limits.maxChunkBytes + 1) ∧
      (codec.state = .head → codec.remaining = 0 ∧ codec.bodyReceived = 0) ∧
      (codec.state = .fixedBody → 0 < codec.remaining ∧ codec.buffer = []) ∧
      (codec.state = .chunkData → 0 < codec.remaining ∧ (codec.remaining : Int) ≤ limits.maxChunkBytes) ∧
      ∀ bytes ∈ messageBodies events, (bytes : Int) ≤ max 0 limits.maxBodyBytes := by
  have sound : Sound limits codec events := by simpa using (Sound.fresh limits).feedAll run
  obtain ⟨rfl, consistent, tallied⟩ := sound
  obtain ⟨held, emptied⟩ := consistent.waiting (feedAll_waits run (fresh_waits codec.limits))
  exact ⟨held, consistent.head, fun state => ⟨consistent.fixedBody state, emptied state⟩,
    consistent.chunkData, tallied.within⟩

/-- The first bytes of a chunked upload, up to the middle of a chunk. -/
def cutUpload : List Bytes :=
  [ascii "PUT / HTTP/1.0\r\nTransfer-Encoding: chunked\r\n", ascii "\r\n5\r\nab"]

theorem unlimited_memory_bound_cutUpload : ∃ events,
    feedAll { limits := {} } (cutUpload.map fun data => (data, 0)) =
        ({ limits := {}, buffer := ascii "ab", state := .chunkData, remaining := 5 }, .ok events) ∧
      ∀ bytes ∈ messageBodies events, (bytes : Int) ≤ max 0 16777216 := by
  have run : feedAll { limits := {} } (cutUpload.map fun data => (data, 0)) =
      ({ limits := {}, buffer := ascii "ab", state := .chunkData, remaining := 5 }, .ok [.requestHead {
        method := "PUT".toList
        target := "/".toList
        version := .http10
        headers := [⟨"transfer-encoding".toList, "chunked".toList⟩]
        keepAlive := false
        expectContinue := false
        contentLength := -1
        chunked := true }]) := by
    rw [cutUpload, ascii_ofList, ascii_ofList, ascii_ofList]
    decide
  exact ⟨_, run, (unlimited_memory_bound {} cutUpload _ _ run).2.2.2.2⟩

/-- Whenever bytes arrive, the codec has nothing left to decode: `feed(b"", 1)` would return no events
and change nothing. -/
def DrainedBeforeInput : Http1ServerCodec → List Bytes → Prop
  | _, [] => True
  | codec, data :: pieces =>
    (data = [] ∨ codec.feed [] 1 = (codec, .ok [])) ∧ DrainedBeforeInput (codec.feed data 1).1 pieces

theorem turn_of_drained {codec : Http1ServerCodec} (drained : codec.feed [] 1 = (codec, .ok [])) :
    codec.turn = .wait := by
  have run : decoder.feed 1 codec [] = (codec, [], none) := (feed_eq_ok_iff.mp drained).2.2
  rw [Decoder.feed, decoder.push_nil] at run
  obtain ⟨t, events, error, halts⟩ := decoder.exists_halts codec
  rcases halts.drain_one decoder_marked [] (Nat.lt_succ_self _) with ⟨ran, _⟩ |
    ⟨s', body, final, rest, ran, _⟩
  · rw [run] at ran
    simp only [List.nil_append, Prod.mk.injEq] at ran
    obtain ⟨rfl, rfl, rfl⟩ := ran
    exact halts.waits rfl
  · simp [run] at ran

theorem Sound.drained_bound {limits : CodecLimits} {S : Nat} {codec last : Http1ServerCodec}
    {past events : List Event} {pieces : List Bytes} (sound : Sound limits codec past)
    (held : (codec.buffer.length : Int) ≤ retention limits + S)
    (run : codec.feedAll (pieces.map fun data => (data, 1)) = (last, .ok events))
    (sizes : ∀ data ∈ pieces, data.length ≤ S)
    (drained : DrainedBeforeInput codec pieces) : (last.buffer.length : Int) ≤ retention limits + S := by
  induction pieces generalizing codec past events with
  | nil =>
    cases run
    exact held
  | cons data pieces ih =>
    obtain ⟨next, first, rest, firstRun, restRun, rfl⟩ := feedAll_cons_eq_ok run
    obtain ⟨before, later⟩ := drained
    rw [firstRun] at later
    obtain ⟨nextSound, grown⟩ := sound.feed (feed_eq_ok_iff.mp firstRun).2.2
    have size := sizes data (List.mem_cons_self ..)
    refine ih nextSound ?_ restRun (fun piece member => sizes piece (List.mem_cons_of_mem _ member)) later
    rcases before with rfl | idle
    · simp only [List.length_nil] at grown
      omega
    · have within := (sound.consistent.waiting (turn_of_drained idle)).1
      rw [sound.limits] at within
      omega

/-- One-message calls that are given bytes only when nothing is left to decode keep the codec's
memory bounded. What is assumed of each call is that it brings at most `S` bytes, and that the codec
had no whole message left when it came. The loop of a connection keeps to that; the look at the
client during a proxied response does not. Nothing is assumed about the limits. -/
theorem one_message_memory_bound (limits : CodecLimits) (S : Nat) (pieces : List Bytes)
    (codec : Http1ServerCodec)
    (events : List Event)
    (run : feedAll { limits := limits } (pieces.map fun data => (data, 1)) = (codec, .ok events))
    (sizes : ∀ data ∈ pieces, data.length ≤ S) (drained : DrainedBeforeInput { limits := limits } pieces) :
    (codec.buffer.length : Int) ≤ max (max limits.maxHeaderBytes 128) (limits.maxChunkBytes + 1) + S := by
  have fresh : (([] : Bytes).length : Int) ≤ retention limits + S := by
    simp only [retention, List.length_nil]
    omega
  exact (Sound.fresh limits).drained_bound fresh run sizes drained

/-- Two requests, read at once. -/
def pipelinedPair : Bytes := ascii "GET / HTTP/1.0\r\n\r\nGET / HTTP/1.0\r\n\r\n"

def plainHead : RequestHead where
  method := "GET".toList
  target := "/".toList
  version := .http10
  headers := []
  keepAlive := false
  expectContinue := false

theorem one_message_memory_bound_pair : ∃ codec,
    feedAll { limits := {} } ([pipelinedPair, []].map fun data => (data, 1)) =
        (codec, .ok [.requestHead plainHead, .requestEnd [], .requestHead plainHead, .requestEnd []]) ∧
      (codec.buffer.length : Int) ≤ max (max 32768 128) (1048576 + 1) + (36 : Nat) := by
  have run : feedAll { limits := {} } ([pipelinedPair, []].map fun data => (data, 1)) =
      ({ limits := {} }, .ok [.requestHead plainHead, .requestEnd [], .requestHead plainHead,
        .requestEnd []]) := by
    rw [pipelinedPair, ascii_ofList]
    decide
  have idle : ({ limits := {} } : Http1ServerCodec).feed [] 1 = ({ limits := {} }, .ok []) := by
    decide
  exact ⟨_, run, one_message_memory_bound {} 36 [pipelinedPair, []] _ _ run (by decide)
    ⟨.inr idle, .inl rfl, trivial⟩⟩

/-- Limits that the configuration admits. -/
def smallLimits : CodecLimits where
  maxRequestLine := 64
  maxHeaderBytes := 64
  maxHeaderCount := 4
  maxBodyBytes := 1
  maxChunkBytes := 1

/-- Ten reads of `pipelinedPair`, one message decoded after each: the codec holds a message more with
every read. -/
theorem one_message_memory_grows :
    let calls := feedAll { limits := smallLimits }
      ((List.replicate 10 pipelinedPair).map fun data => (data, 1))
    pipelinedPair.length = 36 ∧ calls.2.isOk = true ∧ calls.1.buffer.length = 180 ∧
      ¬ (180 : Int) ≤ max (max smallLimits.maxHeaderBytes 128) (smallLimits.maxChunkBytes + 1) + 36 := by
  decide

end Http1ServerCodec
end PccGateway
