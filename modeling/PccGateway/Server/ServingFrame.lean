import PccGateway.Server.Frame

namespace PccGateway
namespace GatewayConnection
open Thread Method

variable {E : Effect → Prop}

/-- The effects of a response that the gateway writes itself. -/
def replying : Effect → Prop
  | .flow | .output | .buffered | .entry .queued => True
  | _ => False

/-- The effects of putting events aside. -/
def sorting : Effect → Prop
  | .deferred | .entry .event => True
  | _ => False

theorem writing_le_replying : writing ≤ replying := by
  intro effect allowed
  cases effect with
  | entry kind => cases kind <;> exact allowed
  | _ => first | exact allowed | trivial

theorem replying_le_serving : replying ≤ serving := by
  intro effect allowed
  cases effect with
  | entry kind => cases kind <;> first | exact allowed | trivial
  | _ => first | exact allowed | trivial

theorem sorting_le_serving : sorting ≤ serving := by
  intro effect allowed
  cases effect with
  | entry kind => cases kind <;> first | exact allowed | trivial
  | _ => first | exact allowed | trivial

section Replying
variable (world : World) (sub : replying ≤ E)
include sub

theorem responseOverflow_moves (method : Text) : Evolves (Moves E) (responseOverflow world method) :=
  .bind (closing_moves (sub .flow trivial)) fun _ => .bind .get fun _ =>
    .when (queueText_moves world (writing_le_replying.trans sub) _ _ _)

theorem recoverOverflow_moves (method : Text) (outcome : Except Exn Bool) :
    Evolves (Moves E) (recoverOverflow world method outcome) := by
  unfold recoverOverflow
  split
  · exact .pure _
  · exact .settle_cons (responseOverflow_moves world sub method) .settle_nil
  · exact .pure _

theorem requestTimeout_moves (id : Nat) : Evolves (Moves E) (requestTimeout world id) := by
  refine .bind (cancelRequest_moves id _) fun _ => .bind (hook_moves world) fun _ =>
    .bind (lift_moves _) fun response => ?_
  exact .bind (closing_moves (sub .flow trivial)) fun _ => .pure _

end Replying

section Dropping
variable (allowed : E (.entry .event))
include allowed

theorem event_moves {entry : Entry} (kind : entry.kind = .event) : Evolves (Moves E) (note entry) :=
  note_moves (kind ▸ allowed)

theorem dropEvent_moves (queuedHeads : Bool) (event : Event) :
    Evolves (Moves E) (dropEvent queuedHeads event) := by
  refine .bind (event_moves allowed rfl) fun _ => ?_
  cases event with
  | bodyChunk data => exact event_moves allowed rfl
  | requestHead head => exact .when (event_moves allowed rfl)
  | requestEnd trailers => exact .pure _

theorem dropEvents_moves (queuedHeads : Bool) (events : List Event) :
    Evolves (Moves E) (dropEvents queuedHeads events) := by
  induction events with
  | nil => exact .pure _
  | cons event rest ih => exact .bind (dropEvent_moves allowed queuedHeads event) fun _ => ih

end Dropping

section Sorting
variable (world : World) (sub : sorting ≤ E)
include sub

theorem defer_moves (event : Event) : Evolves (Moves E) (defer event) :=
  .modify fun connection => { Moves.still connection with deferred := .inl (sub .deferred trivial) }

theorem queueEvent_moves (event : Event) : Evolves (Moves E) (queueEvent world event) := by
  refine .ite (.bind (ask_moves world _) fun admitted => ?_) (.pure _)
  exact .bind (.when (event_moves (sub (.entry .event) trivial) rfl)) fun _ => .pure _

theorem takeDeferred_moves :
    Evolves (Moves E) (modify fun connection => { connection with deferredEvents := [] }) :=
  .modify fun connection => { Moves.still connection with deferred := .inl (sub .deferred trivial) }

theorem discardDeferredEvents_moves : Evolves (Moves E) discardDeferredEvents :=
  .bind .get fun _ => .bind (takeDeferred_moves sub) fun _ =>
    dropEvents_moves (sub (.entry .event) trivial) _ _

end Sorting

section Serving
variable (world : World) (sub : serving ≤ E)
include sub

theorem set_moves {change : GatewayConnection → GatewayConnection}
    (moves : ∀ connection, Moves serving connection (change connection)) :
    Evolves (Moves E) (modify change) :=
  fun connection => (moves connection).mono sub

theorem beginStreamingResponse_moves (id : Nat) (response : Response) (admitted : Bool) :
    Evolves (Moves E) (beginStreamingResponse world id response admitted) := by
  refine .bind (ask_moves world _) fun _ => .bind .get fun connection => .bind (lift_moves _) fun head => ?_
  refine .bind (queueBytes_moves world (writing_le_serving.trans sub) _) fun _ => ?_
  exact set_moves sub fun connection => { Moves.still connection with owners := .inl trivial }

theorem driveStreamChunk_moves (stream : PendingStream) (available : Int) :
    Evolves (Moves E) (driveStreamChunk world stream available) := by
  refine .bind (set_moves sub fun connection => { Moves.still connection with
    owners := .inl trivial }) fun _ => .bind .get fun connection => ?_
  refine .ite (.pure _) (.bind (set_moves sub fun connection => { Moves.still connection with
    owners := .inl trivial }) fun _ => ?_)
  exact queueBytes_moves world (writing_le_serving.trans sub) _

theorem driveFetched_moves (data : Bytes) (stream : PendingStream) (available : Int) :
    Evolves (Moves E) (driveStreamingResponse.driveFetched world data stream available) := by
  refine .ite ?_ (driveStreamChunk_moves world sub _ _)
  refine .bind (set_moves sub fun connection => { Moves.still connection with
    owners := .inl trivial }) fun _ => .ite ?_ (.pure _)
  exact .bind (cancelPendingStream_moves (settling_le_serving.trans sub) _) fun _ =>
    closing_moves (sub .flow trivial)

theorem driveStreamingResponse_moves : Evolves (Moves E) (driveStreamingResponse world) := by
  have settles := settling_le_serving.trans sub
  refine .bind .get fun connection => ?_
  split
  · exact .pure ()
  · refine .bind (requestObject_moves _) fun object =>
      .ite ?_ (.ite (.pure _) (.ite (driveStreamChunk_moves world sub _ _) ?_))
    · exact .bind (cancelPendingStream_moves settles _) fun _ => closing_moves (sub .flow trivial)
    · refine .bind (ask_moves world _) fun fetched => ?_
      split
      · refine .bind (lift_moves _) fun ending =>
          .bind (queueBytes_moves world (writing_le_serving.trans sub) _) fun _ => ?_
        exact completeStreamingResponse_moves world settles
      · exact .bind (cancelPendingStream_moves settles _) fun _ => closing_moves (sub .flow trivial)
      · exact driveFetched_moves world sub _ _ _
      · exact driveFetched_moves world sub _ _ _

theorem admitRequest_moves : Evolves (Moves E) (grant world World.admitRequest .request) :=
  .bind (ask_moves world _) fun _ =>
    .bind (.when (note_moves (sub (.entry .admission) trivial))) fun _ => .pure _

theorem routeRequest_moves (id : Nat) (streaming expectContinue : Bool) :
    Evolves (Moves E) (routeRequest world id streaming expectContinue) := by
  refine .bind (hook_moves world) fun _ => ?_
  refine .bind (.when (queueBytes_moves world (writing_le_serving.trans sub) _)) fun _ =>
    .bind (ask_moves world _) fun plan => ?_
  cases plan with
  | some plan =>
    exact set_moves sub fun connection => { Moves.still connection with owners := .inl trivial }
  | none =>
    exact .ite (.bind (ask_moves world _) fun _ => set_moves sub fun connection =>
      { Moves.still connection with owners := .inl trivial }) (.pure _)

theorem addRequest_moves {change : GatewayConnection → GatewayConnection}
    (object : GatewayConnection → RequestObject)
    (added : ∀ connection, (change connection).requests = connection.requests ++ [object connection])
    (moves : ∀ connection, Moves settling connection { change connection with
      requests := connection.requests }) :
    Evolves (Moves E) (modify change) := fun connection => by
  refine Moves.mono ?_ (settling_le_serving.trans sub)
  exact { moves connection with
    requests := fun id old found => ⟨old, by
      change (change connection).requests[id]? = some old
      rw [added, List.getElem?_append_left (List.getElem?_eq_some_iff.mp found).1, found], .rfl⟩
    owners := .inl trivial }

theorem beginRequest_moves (head : RequestHead) : Evolves (Moves E) (beginRequest world head) := by
  refine .bind .get fun connection => .ite (.raise _) (.bind (nowMs_moves world) fun now => ?_)
  refine .bind (lift_moves _) fun body => .bind (lift_moves _) fun request => ?_
  refine .bind (addRequest_moves sub _ (fun _ => rfl) fun connection => { Moves.still connection with
    owners := .inl trivial
    flow := .inl trivial }) fun _ => ?_
  refine .bind (admitRequest_moves world sub) fun admitted => ?_
  refine .bind (set_moves sub fun connection => { Moves.still connection with
    owners := .inl trivial }) fun _ => ?_
  exact .when (routeRequest_moves world sub _ _ _)

theorem publishResponse_moves (id : Nat) (method : Text) (response : Response) (admitted : Bool) :
    Evolves (Moves E) (publishResponse world id method response admitted) := by
  refine .ite (.bind (beginStreamingResponse_moves world sub id response admitted) fun _ => .pure _) ?_
  refine .bind (responsePayload_moves method response) fun payload => ?_
  refine .bind (queueBytes_moves world (writing_le_serving.trans sub) payload) fun _ => ?_
  exact .bind (hook_moves world) fun _ => .pure _

omit sub in
theorem handlerResponse_moves (result : Dispatched) : Evolves (Moves E) (handlerResponse result) := by
  unfold handlerResponse
  split
  · exact .pure _
  · exact lift_moves _

theorem completeLocalHandlerResponse_moves (id : Nat) (result : Dispatched) :
    Evolves (Moves E) (completeLocalHandlerResponse world id result) := by
  have settles := settling_le_serving.trans sub
  refine .bind (requestObject_moves id) fun object =>
    .bind (handlerResponse_moves result) fun response => ?_
  refine .bind (.attempt (publishResponse_moves world sub id _ response true)) fun outcome =>
    .ite (.pure _) ?_
  refine .bind (recoverOverflow_moves world (replying_le_serving.trans sub) _ outcome) fun error =>
    .bind (release_moves settles) fun _ => ?_
  refine .bind (changeBody_moves id fun _ => BodyStream.grows_close) fun _ =>
    .bind (.raiseFirst error) fun _ => ?_
  exact .bind (completed_moves (sub .flow trivial)) fun _ => retire_moves world (sub .flow trivial)

theorem dispatchRequest_moves (id : Nat) (admitted : Bool) :
    Evolves (Moves E) (dispatchRequest world id admitted) := by
  refine .bind (requestObject_moves id) fun object => .ite ?_ (.bind (nowMs_moves world) fun now =>
    .ite ?_ ?_)
  · refine .bind (lift_moves _) fun response => .bind (closing_moves (sub .flow trivial)) fun _ => ?_
    exact publishResponse_moves world sub _ _ _ _
  · exact .bind (requestTimeout_moves world (replying_le_serving.trans sub) id) fun response =>
      publishResponse_moves world sub _ _ _ _
  · refine .bind (ask_moves world _) fun result => ?_
    have answers {answer : Call Bool} (moves : Evolves (Moves E) answer) : Evolves (Moves E) (do
        let now ← nowMs world
        if object.cancellation.deadlineMs ≤ now then
          let response ← requestTimeout world id
          publishResponse world id object.request.method response admitted
        else answer) := by
      refine .bind (nowMs_moves world) fun now => .ite ?_ moves
      exact .bind (requestTimeout_moves world (replying_le_serving.trans sub) id) fun response =>
        publishResponse_moves world sub _ _ _ _
    cases result with
    | proxy plan =>
      exact .bind (set_moves sub fun connection => { Moves.still connection with
        owners := .inl trivial }) fun _ => .pure _
    | response response => exact answers (publishResponse_moves world sub _ _ _ _)
    | other => exact answers (.raise _)

theorem finishRequest_moves : Evolves (Moves E) (finishRequest world) := by
  have settles := settling_le_serving.trans sub
  refine .bind .get fun connection => .bind (set_moves sub fun connection =>
    { Moves.still connection with owners := .inl trivial }) fun _ => ?_
  split
  · exact .raise _
  · rename_i id _
    refine .bind (changeBody_moves id fun _ => BodyStream.grows_finish) fun _ => .ite (.pure _) ?_
    refine .bind (requestObject_moves id) fun object => ?_
    refine .bind (.attempt (dispatchRequest_moves world sub id _)) fun outcome => ?_
    refine .bind (recoverOverflow_moves world (replying_le_serving.trans sub) _ outcome) fun error =>
      .bind .get fun after => ?_
    refine .bind (.when (.bind (.when (release_moves settles)) fun _ =>
      changeBody_moves id fun _ => BodyStream.grows_close)) fun _ => .bind (.raiseFirst error) fun _ => ?_
    exact .when (.bind (completed_moves (sub .flow trivial)) fun _ =>
      retire_moves world (sub .flow trivial))

theorem handleEvent_moves (event : Event) : Evolves (Moves E) (handleEvent world event) := by
  refine .bind (event_moves (sub (.entry .event) trivial) rfl) fun _ => ?_
  cases event with
  | requestHead head =>
    refine .bind (.attempt (beginRequest_moves world sub head)) fun begun => ?_
    cases begun with
    | ok _ => exact .pure _
    | error error => exact .ite (.raise _) (.raise _)
  | bodyChunk data =>
    refine .bind .get fun connection => ?_
    split
    · exact .bind (event_moves (sub (.entry .event) trivial) rfl) fun _ => .raise _
    · exact .bind (.ensuring (onBody_moves _ fun body =>
        Evolves.call (R := BodyStream.Grows) (BodyStream.grows_feed data) body)
        (event_moves (sub (.entry .event) trivial) rfl)) fun _ => .pure _
  | requestEnd trailers =>
    refine .bind .get fun connection => ?_
    split
    · exact finishRequest_moves world sub
    · refine .bind (changeRequest_moves _ fun object => ?_) fun _ => finishRequest_moves world sub
      exact ⟨rfl, rfl, id, le_rfl, rfl, id⟩

theorem feedEvents_moves (events : List Event) (handled : Int) :
    Evolves (Moves E) (feedEvents world events handled) := by
  induction events generalizing handled with
  | nil => exact .pure _
  | cons event rest ih =>
    refine .bind .get fun connection =>
      .ite (.bind (dropEvents_moves (sub (.entry .event) trivial) _ _) fun _ => .pure _) (.ite ?_ ?_)
    · refine .bind (queueEvent_moves world (sorting_le_serving.trans sub) event) fun queued =>
        .ite (.bind (defer_moves (sorting_le_serving.trans sub) event) fun _ => ih _) ?_
      exact .bind (closing_moves (sub .flow trivial)) fun _ =>
        .bind (dropEvents_moves (sub (.entry .event) trivial) _ _) fun _ => .pure _
    · refine .bind (.attempt (handleEvent_moves world sub event)) fun outcome => ?_
      cases outcome with
      | ok _ => exact ih _
      | error error => exact .bind (dropEvents_moves (sub (.entry .event) trivial) _ _) fun _ => .raise _

theorem failHttp_moves (error : Http1Error) : Evolves (Moves E) (failHttp world error) := by
  refine .bind (abortCurrentRequest_moves (settling_le_serving.trans sub) _) fun _ => ?_
  refine .bind (discardDeferredEvents_moves (sorting_le_serving.trans sub)) fun _ =>
    .bind (closing_moves (sub .flow trivial)) fun _ => .bind .get fun connection => ?_
  exact .when (queueText_moves world (writing_le_serving.trans sub) _ _ _)

theorem decoded_moves (events : List Event) :
    Evolves (Moves E) (modify fun connection =>
      { connection with trace := connection.trace ++ events.map .decoded }) :=
  fun connection => { Moves.still connection with
    trace := ⟨events.map .decoded, rfl, fun entry member => by
      obtain ⟨event, -, rfl⟩ := List.mem_map.mp member
      exact sub (.entry .event) trivial⟩ }

theorem feedDecoded_moves (data : Bytes) (maxMessages : Int) :
    Evolves (Moves E) (feedDecoded world data maxMessages) := by
  refine .bind (onCodec_moves (sub .codec trivial) _) fun events =>
    .bind (decoded_moves sub events) fun _ => ?_
  refine .bind (feedEvents_moves world sub events 0) fun handled => .bind .get fun connection => ?_
  refine .bind (.when (.bind (nowMs_moves world) fun now => ?_)) fun _ => .pure _
  exact .modify fun connection => { Moves.still connection with }

theorem feedData_moves (data : Bytes) (maxMessages : Int) :
    Evolves (Moves E) (feedData world data maxMessages) := by
  refine .bind .get fun connection =>
    .ite (.pure _) (.bind (.attempt (feedDecoded_moves world sub data maxMessages)) fun outcome => ?_)
  split
  · exact .pure _
  · exact .bind (failHttp_moves world sub _) fun _ => .pure _
  · exact .bind (discardDeferredEvents_moves (sorting_le_serving.trans sub)) fun _ =>
      .bind (event_moves (sub (.entry .event) trivial) rfl) fun _ => .raise _

theorem resumeEvents_moves (events : List Event) : Evolves (Moves E) (resumeEvents world events) := by
  induction events with
  | nil => exact .pure _
  | cons event rest ih =>
    refine .bind .get fun connection => .ite (dropEvents_moves (sub (.entry .event) trivial) _ _)
      (.ite (.bind (defer_moves (sorting_le_serving.trans sub) event) fun _ => ih) ?_)
    refine .bind (.when (event_moves (sub (.entry .event) trivial) rfl)) fun _ =>
      .bind (.attempt (handleEvent_moves world sub event)) fun outcome => ?_
    cases outcome with
    | ok _ => exact ih
    | error error => exact .bind (dropEvents_moves (sub (.entry .event) trivial) _ _) fun _ => .raise _

theorem resumeDeferredEvents_moves : Evolves (Moves E) (resumeDeferredEvents world) :=
  .bind .get fun _ => .bind (takeDeferred_moves (sorting_le_serving.trans sub)) fun _ =>
    resumeEvents_moves world sub _

theorem consumeEvents_moves (id : Nat) (events : List Event) :
    Evolves (Moves E) (consumeEvents world id events) := by
  induction events with
  | nil => exact .pure _
  | cons event rest ih =>
    refine .bind .get fun connection =>
      .ite ?_ (.bind (defer_moves (sorting_le_serving.trans sub) event) fun _ => ih)
    refine .bind (.attempt (handleEvent_moves world sub event)) fun outcome => ?_
    cases outcome with
    | ok _ => exact ih
    | error error =>
      exact .bind (set_moves sub fun connection => { Moves.still connection with
        deferred := .inl trivial }) fun _ => .raise _

theorem consumePendingBodyEvents_moves (id : Nat) : Evolves (Moves E) (consumePendingBodyEvents world id) :=
  .bind .get fun _ => .bind (takeDeferred_moves (sorting_le_serving.trans sub)) fun _ =>
    consumeEvents_moves world sub id _

theorem childFailed_moves : Evolves (Moves E) childFailed :=
  .bind (lift_moves _) fun _ => .bind (closing_moves (sub .flow trivial)) fun _ => .pure _

theorem joinChild_moves (expected : Bool) : Evolves (Moves E) (joinChild world expected) := by
  refine .bind (.attempt (ask_moves world _)) fun joined => ?_
  cases joined with
  | ok result => exact .ite (.pure _) (childFailed_moves sub)
  | error error => exact childFailed_moves sub

theorem leaveChildBody_moves (id : Nat) : Evolves (Moves E) (leaveChildBody id) := by
  refine .bind .get fun connection => .when ?_
  refine .bind (set_moves sub fun connection => { Moves.still connection with
    owners := .inl trivial }) fun _ => ?_
  refine .bind (requestObject_moves id) fun object => .when (.bind (cancelRequest_moves id _) fun _ => ?_)
  exact .bind (changeBody_moves id fun _ => BodyStream.grows_cancel) fun _ =>
    closing_moves (sub .flow trivial)

theorem publishChild_moves (id : Nat) (cancelled : Bool) (result : Dispatched) :
    Evolves (Moves E) (publishChild world id cancelled result) := by
  refine .ite ?_ (completeLocalHandlerResponse_moves world sub id result)
  exact .bind (release_moves (settling_le_serving.trans sub)) fun _ => changeBody_moves id fun _ =>
    BodyStream.grows_close

theorem drivePendingLocal_moves : Evolves (Moves E) (drivePendingLocal world) := by
  refine .bind .get fun connection => ?_
  split
  · exact .pure _
  · rename_i id _
    refine .bind (consumePendingBodyEvents_moves world sub id) fun _ =>
      .bind (ask_moves world _) fun outcome => ?_
    refine .bind (requestObject_moves id) fun object => .ite (.pure _) ?_
    refine .bind (.when (ask_moves world _)) fun _ => .bind (joinChild_moves world sub _) fun result => ?_
    refine .bind (set_moves sub fun connection => { Moves.still connection with
      owners := .inl trivial }) fun _ => ?_
    refine .bind (leaveChildBody_moves sub id) fun _ =>
      .bind (publishChild_moves world sub id _ result) fun _ => .pure _

omit sub in
theorem joinCancelled_moves (signalled : Option Exn) :
    Evolves (Moves E) (joinCancelled world signalled) := by
  refine .bind (.attempt (ask_moves world _)) fun joined => ?_
  split
  · exact .bind (ask_moves world _) fun _ => .pure _
  · exact .pure _

theorem cancelAndJoinPendingLocal_moves (reason : String) :
    Evolves (Moves E) (cancelAndJoinPendingLocal world reason) := by
  refine .bind .get fun connection => ?_
  split
  · exact .pure _
  · rename_i id _
    refine .bind (.settle_cons (signalPendingLocal_moves world reason) .settle_nil) fun signalled => ?_
    refine .bind (joinCancelled_moves world signalled) fun error => ?_
    refine .bind (set_moves sub fun connection => { Moves.still connection with
      owners := .inl trivial }) fun _ => ?_
    refine .bind .get fun connection => .bind (.when (set_moves sub fun connection =>
      { Moves.still connection with owners := .inl trivial })) fun _ => ?_
    refine .bind (release_moves (settling_le_serving.trans sub)) fun _ => ?_
    exact .bind (changeBody_moves id fun _ => BodyStream.grows_close) fun _ => .raiseFirst error

omit sub in
theorem waitWritable_moves (id : Nat) : Evolves (Moves E) (waitWritable world id) := by
  refine .bind (requestObject_moves id) fun object => .ite (.pure _) (.ite (.pure _) (.ite (.pure _) ?_))
  exact .bind (ask_moves world _) fun _ => .bind (requestObject_moves id) fun _ => .pure _

theorem inputEof_moves : Evolves (Moves E) (inputEof world) := by
  refine .bind .get fun connection =>
    .ite (.pure _) (.bind (.attempt (onCodec_moves (sub .codec trivial) _)) fun outcome => ?_)
  split
  · exact closing_moves (sub .flow trivial)
  · exact .bind (failHttp_moves world sub _) fun _ => closing_moves (sub .flow trivial)
  · exact .raise _

theorem deadlineTimeout_moves (phase : DeadlinePhase) :
    Evolves (Moves E) (deadlineTimeout world phase) := by
  refine .bind (hook_moves world) fun _ => .bind .get fun connection => .bind (.when ?_) fun _ =>
    closing_moves (sub .flow trivial)
  refine .bind (abortCurrentRequest_moves (settling_le_serving.trans sub) _) fun _ =>
    .bind .get fun connection => ?_
  exact .when (queueText_moves world (writing_le_serving.trans sub) _ _ _)

end Serving

end GatewayConnection
end PccGateway
