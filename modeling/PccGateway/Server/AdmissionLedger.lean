import PccGateway.Server.Admission
import PccGateway.Server.Reach

namespace PccGateway
namespace GatewayConnection
open Thread Method

/-- Every admission is owned, and owned once. -/
def Balanced (connection : GatewayConnection) : Prop := connection.held.Sound 0

theorem balanced_of_moves {before after : GatewayConnection} (moves : Moves aside before after) :
    Keeps Balanced before after := fun balanced => by
  unfold Balanced
  rw [held_of_moves moves]
  exact balanced

/-- A call that leaves the holders alone keeps the balance. -/
theorem keeps_of_aside {α : Type} {call : Call α} (moves : Evolves (Moves aside) call) :
    Evolves (Keeps Balanced) call :=
  moves.mono fun _ _ => balanced_of_moves

theorem free_of_pending {connection : GatewayConnection} (idle : connection.pending = false) :
    connection.held.Free := by
  simp only [pending, Bool.or_eq_false_iff, Option.isSome_eq_false_iff, Option.isNone_iff_eq_none] at idle
  simp [Held.Free, held, idle]

variable (world : World)

section Events
variable {connection : GatewayConnection}

theorem feedBody_aside (id : Nat) (data : Bytes) : Evolves (Moves aside) (do
    let _ ← ensuring (onBody id (Thread.call (BodyStream.feed data))) (note (.chunkReleased data))
    return () : Call Unit) :=
  .bind (.ensuring (onBody_moves _ fun body =>
    Evolves.call (R := BodyStream.Grows) (BodyStream.grows_feed data) body)
    (note_moves (by simp [aside, Entry.kind]))) fun _ => .pure _

theorem setTrailers_aside (id : Nat) (trailers : List Header) :
    Evolves (Moves aside) (changeRequest id fun object =>
    { object with request := { object.request with trailers := trailers } }) :=
  changeRequest_moves id fun _ => ⟨rfl, rfl, fun ended => ended, le_rfl, rfl, fun cancelled => cancelled⟩

theorem handleEvent_balanced (balanced : connection.Balanced) (event : Event)
    (free : isHead event = true → connection.held.Free) :
    Ends (handleEvent world event) connection (fun _ => Balanced) (fun _ => Balanced) := by
  have stays {c : GatewayConnection} (same : c.held = connection.held) : c.Balanced := by
    unfold Balanced
    rw [same]
    exact balanced
  refine aside_bind (note_moves (by simp [aside, Entry.kind])) rfl (fun _ c same => ?_) fun _ _ => stays
  cases event with
  | requestHead head =>
    rw [ends_bind, ends_attempt]
    refine (beginRequest_sound (stays same) (same ▸ free rfl) head).mono (fun _ _ kept => kept)
      fun halt after kept => ?_
    cases halt with
    | raised error => exact .ite (fun _ => kept) fun _ => kept
    | parked => exact kept
    | unfinished => exact kept
  | bodyChunk data =>
    rw [get_bind]
    cases c.currentRequest with
    | none =>
      exact aside_bind (note_moves (by simp [aside, Entry.kind])) same (fun _ _ => stays) fun _ _ => stays
    | some id => exact (aside_ends (feedBody_aside id data) same).mono (fun _ _ => stays) fun _ _ => stays
  | requestEnd trailers =>
    rw [get_bind]
    cases c.currentRequest with
    | none => exact finishRequest_sound (stays same)
    | some id =>
      exact aside_bind (setTrailers_aside id trailers) same (fun _ c same =>
        finishRequest_sound (stays same)) fun _ _ => stays

/-- Behind a pending proxy or child an event moves nothing but the parser. -/
theorem handleEvent_behind (balanced : connection.Balanced)
    (behind : connection.held.proxy.isSome ∨ connection.held.child.isSome) {event : Event}
    (body : isHead event = false) :
    Ends (handleEvent world event) connection
      (fun _ after => after.held = connection.held ∨ after.held = connection.held.clear)
      (fun _ after => after.held = connection.held ∨ after.held = connection.held.clear) := by
  refine aside_bind (note_moves (by simp [aside, Entry.kind])) rfl (fun _ c same => ?_) fun _ _ => .inl
  have finishes {c : GatewayConnection} (same : c.held = connection.held) : Ends (finishRequest world) c
      (fun _ after => after.held = connection.held ∨ after.held = connection.held.clear)
      (fun _ after => after.held = connection.held ∨ after.held = connection.held.clear) := by
    rw [← same] at behind ⊢
    refine (finishRequest_behind ?_ behind).mono (fun _ _ => .inr) fun _ _ => .inr
    rw [same]
    exact balanced
  cases event with
  | requestHead head => cases body
  | bodyChunk data =>
    rw [get_bind]
    cases c.currentRequest with
    | none =>
      exact aside_bind (note_moves (by simp [aside, Entry.kind])) same (fun _ _ => .inl) fun _ _ => .inl
    | some id => exact (aside_ends (feedBody_aside id data) same).mono (fun _ _ => .inl) fun _ _ => .inl
  | requestEnd trailers =>
    rw [get_bind]
    cases c.currentRequest with
    | none => exact finishes same
    | some id =>
      exact aside_bind (setTrailers_aside id trailers) same (fun _ c same => finishes same) fun _ _ => .inl

end Events

section Feeding

theorem abortCurrentRequest_balanced (reason : String) :
    Evolves (Keeps Balanced) (abortCurrentRequest reason) :=
  evolves_keeps_iff.mpr fun connection balanced =>
      (abortCurrentRequest_held reason connection).ends fun _ after now => by
    unfold Balanced
    rw [now]
    exact Held.Sound.abort balanced

theorem feedEvents_balanced (events : List Event) (handled : Int) :
    Evolves (Keeps Balanced) (feedEvents world events handled) := by
  have drops (events : List Event) : Evolves (Keeps Balanced) (dropEvents false events) :=
    keeps_of_aside (dropEvents_moves (by simp [aside]) _ _)
  induction events generalizing handled with
  | nil => exact .pure _
  | cons event rest ih =>
    refine evolves_keeps_iff.mpr fun connection balanced => ?_
    unfold feedEvents
    rw [get_bind]
    refine .ite (fun _ => ?_) fun _ => .ite (fun _ => ?_) fun idle => ?_
    · exact evolves_keeps_iff.mp (.bind (drops _) fun _ => .pure _) connection balanced
    · refine evolves_keeps_iff.mp
        (.bind (keeps_of_aside (queueEvent_moves world sorting_le_aside event)) fun queued => ?_)
        connection balanced
      refine .ite (.bind (keeps_of_aside (defer_moves sorting_le_aside event)) fun _ => ih _) ?_
      exact .bind (keeps_of_aside (closing_moves (by simp [aside]))) fun _ => .bind (drops _)
        fun _ => .pure _
    · rw [ends_bind, ends_attempt]
      refine (handleEvent_balanced world balanced event fun _ => free_of_pending (by simpa using idle)).mono
        (fun _ after kept => evolves_keeps_iff.mp (ih _) after kept) fun halt after kept => ?_
      cases halt with
      | raised error => exact evolves_keeps_iff.mp (.bind (drops rest) fun _ => .raise _) after kept
      | parked => exact kept
      | unfinished => exact kept

theorem discardDeferredEvents_balanced : Evolves (Keeps Balanced) discardDeferredEvents :=
  keeps_of_aside (discardDeferredEvents_moves sorting_le_aside)

theorem closing_balanced :
    Evolves (Keeps Balanced) (modify fun connection => { connection with closeAfterFlush := true }) :=
  keeps_of_aside (closing_moves (by simp [aside]))

theorem failHttp_balanced (error : Http1Error) : Evolves (Keeps Balanced) (failHttp world error) := by
  refine .bind (abortCurrentRequest_balanced _) fun _ => .bind discardDeferredEvents_balanced fun _ => ?_
  refine .bind closing_balanced fun _ => .bind .get fun connection => ?_
  exact .when (keeps_of_aside (queueText_moves world writing_le_aside _ _ _))

theorem decoded_aside (events : List Event) : Evolves (Moves aside) (modify fun connection =>
    { connection with trace := connection.trace ++ events.map .decoded }) :=
  .modify fun connection => { Moves.still connection with
    trace := ⟨events.map .decoded, rfl, fun entry member => by
      obtain ⟨event, -, rfl⟩ := List.mem_map.mp member
      simp [aside, Entry.kind]⟩ }

theorem feedData_balanced (data : Bytes) (maxMessages : Int) :
    Evolves (Keeps Balanced) (feedData world data maxMessages) := by
  have decodes : Evolves (Keeps Balanced) (feedDecoded world data maxMessages) := by
    refine .bind (keeps_of_aside (onCodec_moves (by simp [aside]) _)) fun events => ?_
    refine .bind (keeps_of_aside (decoded_aside events)) fun _ =>
      .bind (feedEvents_balanced world events 0) fun handled => ?_
    refine .bind .get fun connection =>
      .bind (.when (keeps_of_aside (.bind (nowMs_moves world) fun now => ?_))) fun _ => .pure _
    exact .modify fun connection => { Moves.still connection with }
  refine .bind .get fun connection => .ite (.pure _) (.bind (.attempt decodes) fun outcome => ?_)
  split
  · exact .pure _
  · exact .bind (failHttp_balanced world _) fun _ => .pure _
  · refine .bind discardDeferredEvents_balanced fun _ =>
      .bind (keeps_of_aside (note_moves ?_)) fun _ => .raise _
    simp [aside, Entry.kind]

theorem takeDeferred_balanced :
    Evolves (Keeps Balanced) (modify fun connection => { connection with deferredEvents := [] }) :=
  keeps_of_aside (takeDeferred_moves sorting_le_aside)

theorem resumeEvents_balanced (events : List Event) :
    Evolves (Keeps Balanced) (resumeEvents world events) := by
  have drops (events : List Event) : Evolves (Keeps Balanced) (dropEvents true events) :=
    keeps_of_aside (dropEvents_moves (by simp [aside]) _ _)
  induction events with
  | nil => exact .pure _
  | cons event rest ih =>
    refine evolves_keeps_iff.mpr fun connection balanced => ?_
    unfold resumeEvents
    rw [get_bind]
    refine .ite (fun _ => ?_) fun _ => .ite (fun _ => ?_) fun idle => ?_
    · exact evolves_keeps_iff.mp (drops _) connection balanced
    · exact evolves_keeps_iff.mp (.bind (keeps_of_aside (defer_moves sorting_le_aside event)) fun _ =>
        ih) connection balanced
    · refine aside_bind (.when (note_moves (by simp [aside, Entry.kind]))) rfl (fun _ c same => ?_)
        fun _ c same => ?_
      · have kept : c.Balanced := by
          unfold Balanced
          rw [same]
          exact balanced
        rw [ends_bind, ends_attempt]
        refine (handleEvent_balanced world kept event fun _ =>
          same ▸ free_of_pending (by simpa using idle)).mono
          (fun _ after kept => evolves_keeps_iff.mp ih after kept) fun halt after kept => ?_
        cases halt with
        | raised error => exact evolves_keeps_iff.mp (.bind (drops rest) fun _ => .raise _) after kept
        | parked => exact kept
        | unfinished => exact kept
      · unfold Balanced
        rw [same]
        exact balanced

theorem resumeDeferredEvents_balanced : Evolves (Keeps Balanced) (resumeDeferredEvents world) :=
  .bind .get fun _ => .bind takeDeferred_balanced fun _ => resumeEvents_balanced world _

theorem consumeEvents_balanced (id : Nat) (events : List Event) :
    Evolves (Keeps Balanced) (consumeEvents world id events) := by
  have defers (change : List Event → List Event) : Evolves (Keeps Balanced) (modify fun connection =>
      { connection with deferredEvents := change connection.deferredEvents }) :=
    keeps_of_aside (.modify fun connection => { Moves.still connection with
      deferred := .inl (by simp [aside]) })
  induction events with
  | nil => exact .pure _
  | cons event rest ih =>
    refine evolves_keeps_iff.mpr fun connection balanced => ?_
    unfold consumeEvents
    rw [get_bind]
    refine .ite (fun reads => ?_) fun _ => ?_
    · rw [ends_bind, ends_attempt]
      refine (handleEvent_balanced world balanced event fun head => ?_).mono
        (fun _ after kept => evolves_keeps_iff.mp ih after kept) fun halt after kept => ?_
      · rw [reads.2] at head
        cases head
      · cases halt with
        | raised error =>
          exact evolves_keeps_iff.mp (.bind (defers (· ++ rest)) fun _ => .raise _) after kept
        | parked => exact kept
        | unfinished => exact kept
    · exact evolves_keeps_iff.mp (.bind (defers (· ++ [event])) fun _ => ih) connection balanced

theorem consumePendingBodyEvents_balanced (id : Nat) :
    Evolves (Keeps Balanced) (consumePendingBodyEvents world id) :=
  .bind .get fun _ => .bind takeDeferred_balanced fun _ => consumeEvents_balanced world id _

theorem inputEof_balanced : Evolves (Keeps Balanced) (inputEof world) := by
  refine .bind .get fun connection => .ite (.pure _) ?_
  refine .bind (.attempt (keeps_of_aside (onCodec_moves (by simp [aside]) _))) fun outcome => ?_
  split
  · exact closing_balanced
  · exact .bind (failHttp_balanced world _) fun _ => closing_balanced
  · exact .raise _

theorem deadlineTimeout_balanced (phase : DeadlinePhase) :
    Evolves (Keeps Balanced) (deadlineTimeout world phase) := by
  refine .bind (keeps_of_aside (hook_moves world)) fun _ => .bind .get fun connection => ?_
  refine .bind (.when (.bind (abortCurrentRequest_balanced _) fun _ =>
    .bind .get fun connection => ?_)) fun _ => closing_balanced
  exact .when (keeps_of_aside (queueText_moves world writing_le_aside _ _ _))

end Feeding

section Streaming
variable {connection : GatewayConnection}

theorem balanced_of_held {before after : GatewayConnection} (same : after.held = before.held)
    (balanced : before.Balanced) :
    after.Balanced := by
  unfold Balanced
  rw [same]
  exact balanced

theorem pendingStream_of_moves {before after : GatewayConnection} (moves : Moves aside before after) :
    after.pendingStream = before.pendingStream :=
  congrArg Owners.pendingStream (moves.owners.resolve_left fun allowed => allowed.1 rfl)

/-- The stream that is pending goes on. -/
theorem setStream_held {stream next : PendingStream} (pending : connection.pendingStream = some stream)
    (request : next.request = stream.request) (admitted : next.admitted = stream.admitted) :
    GatewayConnection.held { connection with pendingStream := some next } = connection.held := by
  simp [held, pending, request, admitted]

theorem driveStreamChunk_held {stream next : PendingStream}
    (pending : connection.pendingStream = some stream)
    (request : next.request = stream.request) (admitted : next.admitted = stream.admitted)
    (available : Int) :
    Ends (driveStreamChunk world next available) connection (fun _ after => after.held = connection.held)
      (fun _ after => after.held = connection.held) := by
  have first := setStream_held pending request admitted
  unfold driveStreamChunk
  rw [modify_bind, get_bind]
  refine .ite (fun _ => first) fun _ => ?_
  rw [modify_bind]
  refine aside_ends (queueBytes_moves world writing_le_aside _) ?_
  exact setStream_held pending request admitted

theorem cancelStream_balanced (reason : String) : Evolves (Keeps Balanced) (cancelPendingStream reason) :=
  evolves_keeps_iff.mpr fun connection balanced =>
      (cancelPendingStream_held reason connection).ends fun _ after now => by
    unfold Balanced
    rw [now]
    exact Held.Sound.dropStream balanced

theorem completeStreamingResponse_balanced :
    Evolves (Keeps Balanced) (completeStreamingResponse world) := by
  refine evolves_keeps_iff.mpr fun connection balanced => ?_
  have dropped {after : GatewayConnection} (now : after.held = connection.held.dropStream) :
      after.Balanced := by
    unfold Balanced
    rw [now]
    exact Held.Sound.dropStream balanced
  exact (completeStreamingResponse_held world connection).mono (fun _ _ => dropped) fun _ _ => dropped

theorem cancelAndClose_balanced (reason : String) : Evolves (Keeps Balanced) (do
    cancelPendingStream reason
    modify fun connection => { connection with closeAfterFlush := true } : Call Unit) :=
  .bind (cancelStream_balanced reason) fun _ => closing_balanced

theorem driveFetched_balanced {stream : PendingStream} (pending : connection.pendingStream = some stream)
    (balanced : connection.Balanced) (data : Bytes) (available : Int) :
    Ends (driveStreamingResponse.driveFetched world data stream available) connection
      (fun _ => Balanced) (fun _ => Balanced) := by
  unfold driveStreamingResponse.driveFetched
  refine .ite (fun _ => ?_) fun _ => ?_
  · rw [modify_bind]
    refine evolves_keeps_iff.mp (.ite (cancelAndClose_balanced _) (.pure _)) _ ?_
    exact balanced_of_held (setStream_held pending rfl rfl) balanced
  · refine (driveStreamChunk_held world pending ?_ ?_ available).mono
      (fun _ _ same => balanced_of_held same balanced) fun _ _ same => balanced_of_held same balanced
    · rfl
    · rfl

theorem driveStreamingResponse_balanced : Evolves (Keeps Balanced) (driveStreamingResponse world) := by
  refine evolves_keeps_iff.mpr fun connection balanced => ?_
  unfold driveStreamingResponse
  rw [get_bind]
  cases pending : connection.pendingStream with
  | none => exact balanced
  | some stream =>
    rw [ends_bind]
    refine (requestObject_moves (E := aside) stream.request).ends.mono (fun object c moved => ?_)
      fun _ c moved => balanced_of_moves moved balanced
    have kept := balanced_of_moves moved balanced
    have waiting := (pendingStream_of_moves moved).trans pending
    refine .ite (fun _ => ?_) fun _ => .ite (fun _ => kept) fun _ => .ite (fun _ => ?_) fun _ => ?_
    · exact evolves_keeps_iff.mp (cancelAndClose_balanced _) c kept
    · exact (driveStreamChunk_held world waiting rfl rfl _).mono
        (fun _ _ same => balanced_of_held same kept) fun _ _ same => balanced_of_held same kept
    · rw [ends_bind]
      refine (ask_moves (E := aside) world World.nextChunk).ends.mono (fun fetched c moved => ?_)
        fun _ c moved => balanced_of_moves moved kept
      have kept := balanced_of_moves moved kept
      have waiting := (pendingStream_of_moves moved).trans waiting
      split
      · refine evolves_keeps_iff.mp (.bind (keeps_of_aside (lift_moves _)) fun ending => ?_) c kept
        refine .bind (keeps_of_aside (queueBytes_moves world writing_le_aside _)) fun _ => ?_
        exact completeStreamingResponse_balanced world
      · exact evolves_keeps_iff.mp (cancelAndClose_balanced _) c kept
      · exact driveFetched_balanced world waiting kept _ _
      · exact driveFetched_balanced world waiting kept _ _

end Streaming

section Child
variable {connection : GatewayConnection} {held : Held} {id : Nat}

/-- The admission of a pending child is in the hand of the method that has joined it. -/
structure Joined (id : Nat) (held : Held) : Prop where
  sound : held.Sound 1
  free : held.Free
  parser : held.current = none
  known : id < held.requests

theorem handlerResponse_yields (result : Dispatched) :
    Yields (handlerResponse result) connection (· = connection) := by
  cases result <;> rfl

theorem releaseBody_balanced {rest : Call Unit} (joined : Joined id connection.held)
    (flows : Evolves (Moves aside) rest) :
    Ends (do release .request; changeBody id BodyStream.close; rest : Call Unit) connection
      (fun _ => Balanced) (fun _ => Balanced) := by
  refine (release_held connection).bind fun _ c gone => ?_
  refine (changeBody_held id _ c).bind fun _ c' same => ?_
  have settled : c'.Balanced := by
    unfold Balanced
    rw [same, gone]
    exact joined.sound.release rfl
  exact evolves_keeps_iff.mp (keeps_of_aside flows) c' settled

theorem completeLocalHandlerResponse_balanced (joined : Joined id connection.held) (result : Dispatched) :
    Ends (completeLocalHandlerResponse world id result) connection (fun _ => Balanced)
      (fun _ => Balanced) := by
  unfold completeLocalHandlerResponse
  rw [ends_bind]
  refine (requestObject_ends joined.known).mono (fun object c found => ?_) fun _ _ => False.elim
  obtain ⟨rfl, -⟩ := found
  refine (handlerResponse_yields result).bind fun response c same => ?_
  subst same
  have finishes (outcome : Except Exn Bool) {after : GatewayConnection} (kept : after.held = c.held) :
      Ends (do
      let error ← recoverOverflow world object.request.method outcome
      release .request
      changeBody id BodyStream.close
      raiseFirst error
      modify fun connection => { connection with requestsCompleted := connection.requestsCompleted + 1 }
      retire world : Call Unit) after (fun _ => Balanced) (fun _ => Balanced) := by
    refine (recoverOverflow_held kept object.request.method outcome).bind fun error c' same => ?_
    refine releaseBody_balanced (same ▸ joined) (.bind (.raiseFirst error) fun _ => ?_)
    exact .bind (completed_moves (by simp [aside])) fun _ => retire_moves world (by simp [aside])
  rw [ends_bind]
  refine Prompt.attempt (publishResponse_prompt world id _ response true) ?_
  refine (publishResponse_handed rfl id _ response true).mono (fun taken after handed => ?_) fun halt
    after kept error raised => ?_
  · cases taken with
    | true =>
      exact joined.sound.handed rfl joined.free joined.parser joined.known handed
    | false =>
      generalize now : after.held = reached at handed
      cases handed
      exact finishes (.ok false) now
  · exact finishes (.error error) kept

theorem publishChild_balanced (joined : Joined id connection.held) (cancelled : Bool)
    (result : Dispatched) :
    Ends (publishChild world id cancelled result) connection (fun _ => Balanced) (fun _ => Balanced) := by
  unfold publishChild
  refine .ite (fun _ => ?_) fun _ => completeLocalHandlerResponse_balanced world joined result
  refine (release_held connection).bind fun _ c gone => (changeBody_held id _ c).ends fun _ c' same => ?_
  unfold Balanced
  rw [same, gone]
  exact joined.sound.release rfl

/-- A child's request leaves the parser with the child. -/
theorem leaveChildBody_joined (sound : connection.held.Sound 1) (free : connection.held.Free)
    (refused : connection.held.currentAdmitted = false)
    (parser : connection.held.current = none ∨ connection.held.current = some id)
    (known : id < connection.held.requests) :
    Yields (leaveChildBody id) connection (fun after => Joined id after.held) := by
  unfold leaveChildBody Yields
  rw [get_bind]
  refine ends_when (fun reads => ?_) fun idle => ⟨sound, free, parser.resolve_right idle, known⟩
  rw [modify_bind]
  have cleared := sound.clear
  rw [refused] at cleared
  have joined : Joined id connection.held.clear := ⟨cleared, free, rfl, known⟩
  rw [ends_bind]
  refine Ends.mono (requestObject_ends ?_) (fun object c found => ?_) fun _ _ => False.elim
  · exact known
  · obtain ⟨rfl, -⟩ := found
    refine ends_when (fun _ => ?_) fun _ => joined
    refine (changeRequest_held id _ _).bind fun _ c cancelled =>
      (changeBody_held id _ c).bind fun _ c' closed => ?_
    show Joined id c'.held
    rw [closed, cancelled]
    exact joined

/-- A pending child stays pending while the rest of its body is read. -/
def Waiting (id : Nat) (connection : GatewayConnection) : Prop :=
  connection.Balanced ∧ connection.held.child = some id

theorem waiting_of_moves {before after : GatewayConnection} (moves : Moves aside before after) :
    Keeps (Waiting id) before after := fun waiting => by
  unfold Waiting Balanced
  rw [held_of_moves moves]
  exact waiting

theorem keeps_waiting {α : Type} {call : Call α} (moves : Evolves (Moves aside) call) :
    Evolves (Keeps (Waiting id)) call :=
  moves.mono fun _ _ => waiting_of_moves

theorem consumeEvents_waiting (reader : Nat) (events : List Event) :
    Evolves (Keeps (Waiting id)) (consumeEvents world reader events) := by
  have defers (change : List Event → List Event) : Evolves (Keeps (Waiting id)) (modify fun connection =>
      { connection with deferredEvents := change connection.deferredEvents }) :=
    keeps_waiting (.modify fun connection => { Moves.still connection with
      deferred := .inl (by simp [aside]) })
  induction events with
  | nil => exact .pure _
  | cons event rest ih =>
    refine evolves_keeps_iff.mpr fun connection waiting => ?_
    unfold consumeEvents
    rw [get_bind]
    refine .ite (fun reads => ?_) fun _ => ?_
    · have stays {after : GatewayConnection}
        (now : after.held = connection.held ∨ after.held = connection.held.clear) :
          Waiting id after := by
        unfold Waiting Balanced
        rcases now with now | now
        · rw [now]
          exact waiting
        · have cleared := Held.Sound.clear waiting.1
          rw [(waiting.1.child id waiting.2).2.2.2.1] at cleared
          rw [now]
          exact ⟨cleared, waiting.2⟩
      rw [ends_bind, ends_attempt]
      refine (handleEvent_behind world waiting.1 (.inr (by simp [waiting.2])) reads.2).mono
        (fun _ after now => evolves_keeps_iff.mp ih after (stays now)) fun halt after now => ?_
      cases halt with
      | raised error =>
        exact evolves_keeps_iff.mp (.bind (defers (· ++ rest)) fun _ => .raise _) after (stays now)
      | parked => exact stays now
      | unfinished => exact stays now
    · exact evolves_keeps_iff.mp (.bind (defers (· ++ [event])) fun _ => ih) connection waiting

theorem consumePendingBodyEvents_waiting (reader : Nat) :
    Evolves (Keeps (Waiting id)) (consumePendingBodyEvents world reader) :=
  .bind .get fun _ => .bind (keeps_waiting (takeDeferred_moves sorting_le_aside)) fun _ =>
    consumeEvents_waiting world reader _

theorem childFailed_aside : Evolves (Moves aside) childFailed :=
  .bind (lift_moves _) fun _ => .bind (closing_moves (by simp [aside])) fun _ => .pure _

theorem joinChild_aside (expected : Bool) : Evolves (Moves aside) (joinChild world expected) := by
  refine .bind (.attempt (ask_moves world _)) fun joined => ?_
  cases joined with
  | ok result => exact .ite (.pure _) childFailed_aside
  | error error => exact childFailed_aside

/-- The pending child is taken off the connection. -/
theorem takeChild_sound (waiting : Waiting id connection) :
    { connection.held with child := none }.Sound 1 ∧ Held.Free { connection.held with child := none } := by
  obtain ⟨balanced, child⟩ := waiting
  obtain ⟨known, noProxy, noStream, refused, parser⟩ := balanced.child id child
  obtain ⟨active, proxy, -, stream, valid, idle⟩ := balanced
  refine ⟨?_, noProxy, rfl, noStream⟩
  refine ⟨?_, ?_, ?_, ?_, ?_, ?_⟩ <;> grind [Held.owners]

theorem drivePendingLocal_balanced : Evolves (Keeps Balanced) (drivePendingLocal world) := by
  refine evolves_keeps_iff.mpr fun connection balanced => ?_
  unfold drivePendingLocal
  rw [get_bind]
  cases child : connection.pendingLocal with
  | none => exact balanced
  | some id =>
    have forget {after : GatewayConnection} (waiting : Waiting id after) : after.Balanced := waiting.1
    have step {α : Type} {call : Call α} {next : α → Call Bool} {c : GatewayConnection}
        (keeps : Evolves (Keeps (Waiting id)) call) (waiting : Waiting id c)
        (later : ∀ a after, Waiting id after → Ends (next a) after (fun _ => Balanced) (fun _ =>
          Balanced)) :
        Ends (call >>= next) c (fun _ => Balanced) (fun _ => Balanced) :=
      ends_bind.mpr ((evolves_keeps_iff.mp keeps c waiting).mono later fun _ _ => forget)
    refine step (consumePendingBodyEvents_waiting world id) ⟨balanced, child⟩ fun _ c waiting => ?_
    refine step (keeps_waiting (ask_moves world _)) waiting fun outcome c waiting => ?_
    refine step (keeps_waiting (requestObject_moves id)) waiting fun object c waiting =>
      .ite (fun _ => waiting.1) fun _ => ?_
    refine step (keeps_waiting (.when (ask_moves world _))) waiting fun _ c waiting => ?_
    refine step (keeps_waiting (joinChild_aside world _)) waiting fun result c waiting => ?_
    obtain ⟨known, -, -, refused, parser⟩ := waiting.1.child id waiting.2
    obtain ⟨sound, free⟩ := takeChild_sound waiting
    rw [modify_bind]
    have left : Yields (leaveChildBody id) { c with pendingLocal := none } (fun after =>
        Joined id after.held) :=
      leaveChildBody_joined sound free refused parser known
    refine left.bind fun _ c joined => ?_
    rw [ends_bind]
    exact (publishChild_balanced world joined _ result).mono (fun _ _ kept => kept) fun _ _ kept => kept

theorem joinCancelled_aside (signalled : Option Exn) :
    Evolves (Moves aside) (joinCancelled world signalled) :=
  joinCancelled_moves world signalled

/-- When the child was joined, its request is nobody's. -/
theorem cancelAndJoinPendingLocal_balanced (reason : String) :
    Evolves (Keeps Balanced) (cancelAndJoinPendingLocal world reason) := by
  refine evolves_keeps_iff.mpr fun connection balanced => ?_
  unfold cancelAndJoinPendingLocal
  rw [get_bind]
  cases child : connection.pendingLocal with
  | none => exact balanced
  | some id =>
    have signals : Evolves (Moves aside) (settle [signalPendingLocal world reason] : Call (Option Exn)) :=
      .settle_cons (signalPendingLocal_moves world reason) .settle_nil
    have forget {after : GatewayConnection} (waiting : Waiting id after) : after.Balanced := waiting.1
    rw [ends_bind]
    refine (evolves_keeps_iff.mp (keeps_waiting signals) connection ⟨balanced, child⟩).mono
      (fun signalled c waiting => ?_)
      fun _ _ => forget
    rw [ends_bind]
    refine (evolves_keeps_iff.mp (keeps_waiting (joinCancelled_aside world signalled)) c waiting).mono
      (fun error c waiting => ?_) fun _ _ => forget
    obtain ⟨known, -, -, refused, parser⟩ := waiting.1.child id waiting.2
    obtain ⟨sound, free⟩ := takeChild_sound waiting
    rw [modify_bind, get_bind]
    refine Yields.bind (P := fun after => Joined id after.held) ?_ fun _ after joined => ?_
    · refine ends_when (fun reads => ?_) fun idle => ⟨sound, free, parser.resolve_right idle, known⟩
      have cleared := sound.clear
      rw [show Held.currentAdmitted { c.held with child := none } = false from refused] at cleared
      exact ⟨cleared, free, rfl, known⟩
    · exact releaseBody_balanced joined (.raiseFirst error)

end Child

section Proxy
variable {connection : GatewayConnection}

theorem finishProxy_balanced (id : Nat) : Evolves (Keeps Balanced) (finishProxy world id) := by
  refine evolves_keeps_iff.mpr fun connection balanced => ?_
  unfold finishProxy
  rw [get_bind]
  refine .ite (fun _ => balanced) fun pending => ?_
  have owned : connection.held.proxy = some id := not_not.mp pending
  obtain ⟨known, noChild, noStream, refused, parser⟩ := balanced.proxy id owned
  have sound : { connection.held with proxy := none }.Sound 1 := by
    obtain ⟨active, -, child, stream, valid, idle⟩ := balanced
    refine ⟨?_, ?_, ?_, ?_, ?_, ?_⟩ <;> grind [Held.owners]
  have free : Held.Free { connection.held with proxy := none } := ⟨rfl, noChild, noStream⟩
  rw [modify_bind]
  refine Yields.bind (P := fun after => Joined id after.held) ?_ fun _ after joined => ?_
  · refine ends_when (fun reads => ?_) fun idle => ⟨sound, free, parser.resolve_right idle, known⟩
    have cleared := sound.clear
    rw [show Held.currentAdmitted { connection.held with proxy := none } = false from refused] at cleared
    exact ⟨cleared, free, rfl, known⟩
  · rw [ends_bind]
    refine (requestObject_ends joined.known).mono (fun object c found => ?_) fun _ _ => False.elim
    obtain ⟨rfl, -⟩ := found
    refine Yields.bind (P := fun after => after.held = c.held) ?_ fun _ c' same => ?_
    · refine ends_when (fun _ => ?_) fun _ => rfl
      rw [modify_bind]
      refine Yields.bind (P := fun after => after.held = c.held) ?_ fun _ c' same => ?_
      · exact ends_when (fun _ => changeRequest_held id _ _) fun _ => rfl
      · exact (changeBody_held id _ c').mono fun _ closed => closed.trans same
    · refine (changeBody_held id _ c').bind fun _ c'' closed =>
        (release_held c'').bind fun _ last gone => ?_
      refine evolves_keeps_iff.mp (keeps_of_aside (.bind (completed_moves (by simp [aside])) fun _ =>
        retire_moves world (by simp [aside]))) last ?_
      unfold Balanced
      rw [gone, closed, same]
      exact joined.sound.release rfl

end Proxy

section Closing
variable {connection : GatewayConnection}

theorem signalPendingLocal_prompt (reason : String) : Prompt (signalPendingLocal world reason) := by
  refine .bind .get fun connection => ?_
  split
  · exact .pure _
  · exact .bind (.modify _) fun _ => .bind (.modify _) fun _ => ask_prompt world _

/-- The owners that `close` takes. -/
theorem closeOwners_held (reason : String) :
    Yields (settle [abortCurrentRequest reason, signalPendingLocal world reason,
    cancelPendingProxy reason, cancelPendingStream reason]) connection
      (fun after => after.held = connection.held.abort.dropProxy.dropStream) := by
  refine yields_settle_cons (abortCurrentRequest_held reason connection) fun c aborted => ?_
  have later {c : GatewayConnection} (same : c.held = connection.held.abort) :
      Yields (settle [cancelPendingProxy reason,
      cancelPendingStream reason]) c
        (fun after => after.held = connection.held.abort.dropProxy.dropStream) := by
    refine yields_settle_cons (cancelPendingProxy_held reason c) fun c' dropped => ?_
    refine yields_settle_cons (cancelPendingStream_held reason c') fun c'' gone => yields_settle_nil ?_
    rw [gone, dropped, same]
  refine ends_settle_cons ?_
  refine ((aside_ends (signalPendingLocal_moves world reason) aborted).and
    (signalPendingLocal_prompt world reason c)).mono
    (fun _ c' same => later same.1) fun halt c' same => ?_
  obtain ⟨same, error, rfl⟩ := same
  exact later same

theorem close_held (live : connection.closed = false) (reason : String) :
    Ends (close world reason) connection
    (fun _ after => after.held = connection.held.abort.dropProxy.dropStream)
    (fun _ after => after.held = connection.held.abort.dropProxy.dropStream) := by
  unfold close
  rw [get_bind]
  refine .ite (fun closed => by simp [live] at closed) fun _ => ?_
  rw [modify_bind]
  refine (closeOwners_held world reason).bind fun first c settled => ?_
  rw [get_bind]
  have released (count : Nat) : Evolves (Moves aside) (releaseBuffered world count) :=
    releaseBuffered_moves world (by simp [aside]) count
  have shut : Evolves (Moves aside) (modify fun connection =>
      { connection with output := connection.output.close }) :=
    .modify fun connection => { Moves.still connection with output := .inl (by simp [aside]) }
  have cleanups : Evolves (Moves aside) (settle [
      dropEvents true connection.deferredEvents,
      modify fun connection => { connection with output := connection.output.close },
      releaseBuffered world connection.output.queuedBytes,
      when connection.tls (ask world World.close),
      when (0 ≤ connection.fd) (ask world World.close),
      when (0 ≤ connection.fd) (ask world World.close),
      hook world] : Call (Option Exn)) :=
    .settle_cons (dropEvents_moves (by simp [aside]) _ _) (.settle_cons shut (.settle_cons (released _)
      (.settle_cons (.when (ask_moves world _)) (.settle_cons (.when (ask_moves world _))
        (.settle_cons (.when (ask_moves world _)) (.settle_cons (hook_moves world) .settle_nil))))))
  refine aside_bind ?_ settled (fun later c' same => ?_) fun _ _ same => same
  · by_cases unsettled : c.pendingLocal.isSome
    · rw [if_pos unsettled]
      exact .settle_cons (.raise _) cleanups
    · rw [if_neg unsettled]
      exact cleanups
  · exact aside_ends (.raiseFirst _) same

theorem close_balanced (reason : String) : Evolves (Keeps Balanced) (close world reason) := by
  refine evolves_keeps_iff.mpr fun connection balanced => ?_
  by_cases closed : connection.closed = true
  · unfold close
    rw [get_bind]
    exact .ite (fun _ => balanced) fun live => absurd closed live
  · have kept {after : GatewayConnection} (now : after.held = connection.held.abort.dropProxy.dropStream) :
        after.Balanced := by
      unfold Balanced
      rw [now]
      exact (Held.Sound.abort balanced).dropProxy.dropStream
    exact (close_held world (by simpa using closed) reason).mono (fun _ _ => kept) fun _ _ => kept

theorem step_balanced {before after : GatewayConnection} (step : Step world before after) :
    Keeps Balanced before after := by
  cases step with
  | calm moves => exact balanced_of_moves (moves.mono attempting_le_aside)
  | feedData data maxMessages => exact feedData_balanced world data maxMessages before
  | consumePendingBodyEvents id => exact consumePendingBodyEvents_balanced world id before
  | resumeDeferredEvents => exact resumeDeferredEvents_balanced world before
  | drivePendingLocal => exact drivePendingLocal_balanced world before
  | driveStreamingResponse => exact driveStreamingResponse_balanced world before
  | inputEof => exact inputEof_balanced world before
  | deadlineTimeout phase => exact deadlineTimeout_balanced world phase before
  | closing => exact closing_balanced before
  | finishProxy id => exact finishProxy_balanced world id before
  | cancelAndJoinPendingLocal reason => exact cancelAndJoinPendingLocal_balanced world reason before
  | close reason => exact close_balanced world reason before

end Closing

end GatewayConnection
end PccGateway
