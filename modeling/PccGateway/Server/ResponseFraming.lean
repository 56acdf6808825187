import PccGateway.Proxy.ResponseHead
import PccGateway.Server.ServingFrame

namespace PccGateway
open Incremental

/-- One of the fields has this name, in whatever case it was written. -/
def Names (fields : List Header) (name : String) : Prop := ∃ field ∈ fields, lower field.1 = name.toList

/-- A response on the wire: status line, field lines, a blank line and a body. -/
def WrittenResponse (data : Bytes) (status : Nat) (fields : List Header) (body : Bytes) : Prop :=
  data = Http1ResponseEncoder.statusLine status ++ crlf ++ fieldSection fields ++ crlf ++ body

theorem WrittenResponse.nonempty {data body : Bytes} {status : Nat} {fields : List Header}
    (written : WrittenResponse data status fields body) : data ≠ [] := by
  rw [written]
  simp [crlf]

theorem names_append_iff {first second : List Header} {name : String} :
    Names (first ++ second) name ↔ Names first name ∨ Names second name := by
  simp only [Names, List.mem_append, or_and_right, exists_or]

namespace Http1ResponseEncoder

theorem framingFields_names (contentLength : Int) (chunked : Bool) :
    (Names (framingFields contentLength chunked) "content-length" ↔ 0 ≤ contentLength) ∧
      (Names (framingFields contentLength chunked) "transfer-encoding" ↔ chunked = true) := by
  have length : lower "Content-Length".toList = "content-length".toList := by decide
  have coding : lower "Transfer-Encoding".toList = "transfer-encoding".toList := by decide
  unfold framingFields
  simp only [names_append_iff]
  constructor
  · constructor
    · rintro (⟨field, member, named⟩ | ⟨field, member, named⟩) <;> split at member
      · assumption
      · cases member
      · rw [List.mem_singleton.mp member, coding] at named
        exact absurd named (by decide)
      · cases member
    · intro known
      exact .inl ⟨_, by rw [if_pos known]; exact List.mem_singleton_self _, length⟩
  · constructor
    · rintro (⟨field, member, named⟩ | ⟨field, member, named⟩) <;> split at member
      · rw [List.mem_singleton.mp member, length] at named
        exact absurd named (by decide)
      · cases member
      · assumption
      · cases member
    · intro known
      exact .inr ⟨_, by rw [if_pos known]; exact List.mem_singleton_self _, coding⟩

/-- A head's framing fields are the ones that the encoder was asked for. -/
theorem head_written {status : Nat} {headers : List Header} {contentLength : Int}
    {chunked keepAlive : Bool} {data : Bytes}
    (run : head status headers contentLength chunked keepAlive = .ok data) :
    ∃ fields, WrittenResponse data status fields [] ∧ (Names fields "content-length" ↔ 0 ≤ contentLength) ∧
      (Names fields "transfer-encoding" ↔ chunked = true) := by
  obtain ⟨_, valid, display⟩ := head_display run
  have foreign (name : String) (owned : name ∈ ["content-length", "transfer-encoding", "connection"]) :
      ¬ Names headers name := by
    rintro ⟨header, member, named⟩
    exact (valid header member).2 (List.mem_map.mpr ⟨name, owned, named.symm⟩)
  have plain (name : String) (other : name ≠ "connection") : ¬ Names (connectionFields keepAlive) name := by
    rintro ⟨field, member, named⟩
    unfold connectionFields at member
    split at member
    · cases member
    · rw [List.mem_singleton.mp member] at named
      exact other (String.toList_inj.mp (named.symm.trans (by decide)))
  obtain ⟨length, coding⟩ := framingFields_names contentLength chunked
  refine ⟨_, by rw [WrittenResponse, List.append_nil]; exact display, ?_, ?_⟩
  · simp [names_append_iff, foreign, plain, length]
  · simp [names_append_iff, foreign, plain, coding]

end Http1ResponseEncoder

/-- The framing that a client of HTTP/1.0 can read: no chunks, and an end, which is a length or the
end of the connection. -/
structure OldClientFramed (fields : List Header) (closes : Prop) : Prop where
  plain : ¬ Names fields "transfer-encoding"
  delimited : ¬ Names fields "content-length" → closes

/-- The response is sent in chunks: it is a stream, and the client is sent its body. -/
def Response.Streams (response : Response) (method : Text) : Prop :=
  response.streaming = true ∧ response.withoutBody = false ∧ method ≠ "HEAD".toList

/-- The head of the response carries the length of its body. -/
def Response.Measured (response : Response) : Prop :=
  response.streaming = false ∧ response.contentLengthForbidden = false

/-- A body is expected, and the upstream did not say how long it is. -/
def UpstreamResponseHead.Unmeasured (head : UpstreamResponseHead) : Prop :=
  head.bodyExpected = true ∧ head.contentLength < 0

/-- The upstream gave a length, and the response to a request with this method may carry it. -/
def UpstreamResponseHead.Measured (head : UpstreamResponseHead) (method : Text) : Prop :=
  0 ≤ head.contentLength ∧ (head.bodyExpected = true ∨ method = "HEAD".toList ∨ head.status = 304)

theorem Response.Measured.not_streams {response : Response} (measured : response.Measured) (method : Text) :
    ¬ response.Streams method := fun streams => absurd (streams.1.symm.trans measured.1) (by decide)

/-- Both framing fields of a head are known, so it is known for whom the head will do. -/
theorem oldClientFramed_iff {fields : List Header} {chunked measured closes : Prop}
    (coding : Names fields "transfer-encoding" ↔ chunked)
    (length : Names fields "content-length" ↔ measured) :
    OldClientFramed fields closes ↔ ¬ chunked ∧ (measured ∨ closes) := by
  constructor
  · intro framed
    refine ⟨fun sent => framed.plain (coding.mpr sent), ?_⟩
    by_cases known : measured
    · exact .inl known
    · exact .inr (framed.delimited fun named => known (length.mp named))
  · rintro ⟨plain, delimited⟩
    exact ⟨fun named => plain (coding.mp named), fun unknown => delimited.resolve_left fun known =>
      unknown (length.mpr known)⟩

namespace GatewayConnection
open Thread Method

/-- The call queued one response, and these are the fields of its head. -/
def Heads (before after : GatewayConnection) (status : Nat) (fields : List Header) : Prop :=
  ∃ data body, after.trace = before.trace ++ [.queued data] ∧ WrittenResponse data status fields body

/-- The connection is closed behind the response to its current request. The last disjunct is what the
server answers when the response is over. -/
def Closing (world : World) (tick : Nat) (connection : GatewayConnection) : Prop :=
  connection.closeAfterFlush = true ∨ connection.currentKeepAlive = false ∨
    connection.config.maxRequestsPerConnection ≤ connection.requestsCompleted + 1 ∨
    world.running tick = false

/-- The effects of holding bytes. -/
def holding : Effect → Prop
  | .output | .buffered => True
  | _ => False

/-- What framing depends on stays, and nothing is recorded. -/
def Unmoved (before after : GatewayConnection) : Prop :=
  after.trace = before.trace ∧ after.flow = before.flow ∧ after.config = before.config

theorem Moves.unmoved {before after : GatewayConnection} (moves : Moves holding before after) :
    Unmoved before after := by
  obtain ⟨added, grown, kinds⟩ := moves.trace
  have empty : added = [] := List.eq_nil_iff_forall_not_mem.mpr kinds
  refine ⟨?_, moves.flow.resolve_left not_false, moves.config⟩
  rw [grown, empty, List.append_nil]

theorem closing_congr {before after : GatewayConnection} {world : World} {tick : Nat}
    (flow : after.flow = before.flow)
    (config : after.config = before.config) : Closing world tick after ↔ Closing world tick before := by
  unfold Closing
  rw [config, show after.closeAfterFlush = before.closeAfterFlush from congrArg Flow.closeAfterFlush flow,
    show after.currentKeepAlive = before.currentKeepAlive from congrArg Flow.currentKeepAlive flow,
    show after.requestsCompleted = before.requestsCompleted from congrArg Flow.requestsCompleted flow]

/-- Every request ends with these two steps. -/
theorem retire_closes (world : World) (connection : GatewayConnection) :
    (retire world { connection with
      requestsCompleted := connection.requestsCompleted + 1 }).1.closeAfterFlush = true ↔
      Closing world connection.tick connection := by
  unfold retire Closing
  simp only [modify, Method.modify_run]
  split
  · rename_i last
    exact iff_of_true rfl (.inr last)
  · rename_i goes
    exact ⟨.inl, fun closing => closing.elim id fun last => absurd last goes⟩

section Written
variable (world : World)

theorem ends_unmoved {α : Type} {call : Call α} (moves : Evolves (Moves holding) call)
    (connection : GatewayConnection) :
    Ends call connection (fun _ after => Unmoved connection after) (fun _ _ => True) :=
  moves.ends.mono (fun _ _ moved => moved.unmoved) fun _ _ _ => trivial

/-- A call queued `data` and did nothing else that framing depends on. -/
def Queued (data : Bytes) (before after : GatewayConnection) : Prop :=
  after.trace = before.trace ++ [.queued data] ∧ after.flow = before.flow ∧ after.config = before.config

theorem Queued.of_unmoved {data : Bytes} {first second third fourth : GatewayConnection}
    (before : Unmoved first second)
    (queued : Queued data second third) (after : Unmoved third fourth) : Queued data first fourth := by
  obtain ⟨trace, flow, config⟩ := before
  obtain ⟨grown, flow', config'⟩ := queued
  obtain ⟨trace'', flow'', config''⟩ := after
  exact ⟨by rw [trace'', grown, trace], by rw [flow'', flow', flow], by rw [config'', config', config]⟩

/-- Bytes that the buffer took are the one new entry. -/
theorem queueBytes_written {data : Bytes} (some : data ≠ []) (connection : GatewayConnection) :
    Ends (queueBytes world data) connection (fun _ after => Queued data connection after)
      (fun _ _ => True) := by
  unfold queueBytes
  rw [if_neg some, ends_bind]
  refine (ends_unmoved (reserveBuffered_moves world trivial _) _).mono (fun reserved held first => ?_)
    fun _ _ _ => trivial
  refine .ite (fun _ => trivial) fun _ => ?_
  rw [ends_bind]
  refine (ends_unmoved (.attempt (onOutput_moves trivial _)) _).mono
    (fun outcome appended second => ?_) fun _ _ _ => trivial
  cases outcome with
  | error error =>
    exact ends_bind.mpr ((ends_unmoved (releaseBuffered_moves world trivial _) _).mono
      (fun _ _ _ => trivial) fun _ _ _ => trivial)
  | ok transition =>
    change Ends (_ >>= _) _ _ _
    have rest : Evolves (Moves holding) (do
        let connection ← get
        when (connection.writeDeadlineMs < 0) (restartWriteDeadline world)
        when (transition = .high) (hook world) : Call Unit) :=
      .bind .get fun _ => .bind (.when (restartWriteDeadline_moves world)) fun _ => .when (hook_moves world)
    have kept : Unmoved connection appended :=
      ⟨second.1.trans first.1, second.2.1.trans first.2.1, second.2.2.trans first.2.2⟩
    have noted : Queued data appended { appended with trace := appended.trace ++ [.queued data] } :=
      ⟨rfl, rfl, rfl⟩
    exact (ends_unmoved rest _).mono (fun _ _ third => .of_unmoved kept noted third) fun _ _ _ => trivial

/-- A response that is written at once. Its head is chunked only if it streams, and that is another
branch. -/
theorem responsePayload_written (method : Text) (response : Response) (connection : GatewayConnection) :
    Ends (responsePayload method response) connection (fun payload after =>
      after = connection ∧ ∃ fields body, WrittenResponse payload response.status fields body ∧
      (Names fields "transfer-encoding" ↔ response.Streams method) ∧
      (Names fields "content-length" ↔ response.Measured)) (fun _ _ => True) := by
  unfold responsePayload
  rw [get_bind]
  refine .ite (fun streaming => ?_) fun fixed => ?_
  · refine ends_reraise (fun payload encoded => ?_) fun _ => trivial
    obtain ⟨fields, written, length, coding⟩ := Http1ResponseEncoder.head_written encoded
    refine ⟨rfl, fields, [], written, ?_, ?_⟩
    · simpa [Response.Streams, streaming] using coding
    · simpa [Response.Measured, streaming] using length
  · refine lift_bind (fun body _ => lift_bind (fun head encoded => ?_) fun _ => trivial) fun _ => trivial
    obtain ⟨fields, written, length, coding⟩ := Http1ResponseEncoder.head_written encoded
    refine ⟨rfl, fields, if response.withoutBody ∨ method = "HEAD".toList then [] else body, ?_, ?_, ?_⟩
    · unfold WrittenResponse at written ⊢
      rw [List.append_nil] at written
      show (if _ then head else head ++ body) = _
      split <;> simp [written]
    · simp [coding, Response.Streams, fixed]
    · rw [length]
      cases forbidden : response.contentLengthForbidden <;> simp [Response.Measured, fixed, forbidden]

/-- A stream: the head is all that is queued, and it is chunked. -/
theorem beginStreamingResponse_written (id : Nat) (response : Response) (admitted : Bool)
    (connection : GatewayConnection) :
    Ends (beginStreamingResponse world id response admitted) connection (fun _ after => ∃ head fields,
      Queued head connection after ∧ WrittenResponse head response.status fields [] ∧
      Names fields "transfer-encoding" ∧ ¬ Names fields "content-length") (fun _ _ => True) := by
  unfold beginStreamingResponse
  rw [ends_bind]
  refine (ends_unmoved (ask_moves world World.iterate) _).mono (fun _ asked first => ?_)
    fun _ _ _ => trivial
  rw [get_bind]
  refine lift_bind (fun head encodes => ?_) fun _ => trivial
  obtain ⟨fields, written, length, coding⟩ := Http1ResponseEncoder.head_written encodes
  rw [ends_bind]
  refine (queueBytes_written world written.nonempty asked).mono (fun _ queued second => ?_)
    fun _ _ _ => trivial
  refine ⟨head, fields, .of_unmoved first second ⟨rfl, rfl, rfl⟩, written, coding.mpr rfl, fun named => ?_⟩
  exact absurd (length.mp named) (by decide)

theorem publishResponse_written (id : Nat) (method : Text) (response : Response) (admitted : Bool)
    (connection : GatewayConnection) :
    Ends (publishResponse world id method response admitted) connection
      (fun taken after => ∃ data fields body,
      Queued data connection after ∧ WrittenResponse data response.status fields body ∧
      (taken = true ↔ response.Streams method) ∧
      (Names fields "transfer-encoding" ↔ response.Streams method) ∧
      (Names fields "content-length" ↔ response.Measured)) (fun _ _ => True) := by
  unfold publishResponse
  refine .ite (fun streams => ?_) fun whole => ?_
  · rw [ends_bind]
    refine (beginStreamingResponse_written world id response admitted connection).mono
      (fun _ after begun => ?_)
      fun _ _ _ => trivial
    obtain ⟨head, fields, queued, written, coding, length⟩ := begun
    refine ⟨head, fields, [], queued, written, iff_of_true rfl streams, iff_of_true coding streams, ?_⟩
    exact iff_of_false length fun measured => measured.not_streams method streams
  · rw [ends_bind]
    refine (responsePayload_written method response connection).mono (fun payload _ built => ?_)
      fun _ _ _ => trivial
    obtain ⟨rfl, fields, body, written, coding, length⟩ := built
    rw [ends_bind]
    refine (queueBytes_written world written.nonempty _).mono (fun _ queued second => ?_)
      fun _ _ _ => trivial
    rw [ends_bind]
    refine (ends_unmoved (hook_moves world) queued).mono (fun _ after third => ?_) fun _ _ _ => trivial
    exact ⟨payload, fields, body, .of_unmoved ⟨rfl, rfl, rfl⟩ second third, written,
      iff_of_false Bool.false_ne_true whole, coding, length⟩

/-- A response of the gateway itself is never a stream. -/
theorem queueText_written (method : Text) (body : String) (status : Nat) (connection : GatewayConnection) :
    Ends (queueText world method body status) connection (fun _ after => ∃ data fields body,
      Queued data connection after ∧ WrittenResponse data status fields body ∧
      ¬ Names fields "transfer-encoding" ∧
        (Names fields "content-length" ↔ status ≠ 204)) (fun _ _ => True) := by
  unfold queueText
  refine lift_bind (fun response text => ?_) fun _ => trivial
  rw [ends_bind]
  refine (responsePayload_written method response connection).mono (fun payload _ built => ?_)
    fun _ _ _ => trivial
  obtain ⟨rfl, fields, body, written, coding, length⟩ := built
  have final := response.final
  have fixed : response.streaming = false ∧ response.status = status := by
    unfold Response.text Response.init at text
    split at text
    · cases text
      exact ⟨rfl, rfl⟩
    · cases text
  have measured : response.Measured ↔ status ≠ 204 := by
    rw [← fixed.2]
    simp only [Response.Measured, Response.contentLengthForbidden, fixed.1, true_and,
      decide_eq_false_iff_not]
    omega
  refine (queueBytes_written world written.nonempty _).mono (fun _ after queued => ?_) fun _ _ _ => trivial
  refine ⟨payload, fields, body, queued, fixed.2 ▸ written, fun named => ?_, length.trans measured⟩
  exact absurd (fixed.1.symm.trans (coding.mp named).1) (by decide)

/-- Nothing is recorded while it is decided what to answer. -/
theorem ends_unrecorded {α : Type} {call : Call α} (moves : Evolves (Moves (· = .flow)) call)
    (connection : GatewayConnection) :
    Ends call connection (fun _ after => after.trace = connection.trace) (fun _ _ => True) := by
  refine moves.ends.mono (fun _ after moved => ?_) fun _ _ _ => trivial
  obtain ⟨added, grown, kinds⟩ := moved.trace
  rw [grown, List.eq_nil_iff_forall_not_mem.mpr fun entry member =>
    Effect.noConfusion (kinds entry member), List.append_nil]

/-- The request was given to a proxy, or its response was published, and nothing had been written for
it before. -/
def Answers (id : Nat) (method : Text) (admitted : Bool) (start : GatewayConnection) (taken : Bool)
    (published : GatewayConnection) : Prop :=
  published.pendingProxy = none → ∃ response before, before.trace = start.trace ∧
    publishResponse world id method response admitted before = (published, .ok taken)

theorem publishResponse_answers {id : Nat} {method : Text} {admitted : Bool}
    {start before : GatewayConnection} (response : Response) (same : before.trace = start.trace) :
    Ends (publishResponse world id method response admitted) before (Answers world id method admitted start)
      (fun _ _ => True) := by
  unfold Ends
  split
  · rename_i run
    exact fun _ => ⟨response, before, same, run⟩
  · trivial

theorem requestTimeout_answers {id : Nat} {method : Text} {admitted : Bool}
    {start before : GatewayConnection} (same : before.trace = start.trace) :
    Ends (requestTimeout world id >>= fun response =>
      publishResponse world id method response admitted) before
      (Answers world id method admitted start) (fun _ _ => True) := by
  have moves : Evolves (Moves (· = .flow)) (requestTimeout world id) :=
    .bind (cancelRequest_moves id _) fun _ => .bind (hook_moves world) fun _ =>
        .bind (lift_moves _) fun _ =>
      .bind (closing_moves rfl) fun _ => .pure _
  rw [ends_bind]
  refine (ends_unrecorded moves before).mono (fun response _ unrecorded => ?_) fun _ _ _ => trivial
  exact publishResponse_answers world response (unrecorded.trans same)

theorem dispatchRequest_answers {id : Nat} {admitted : Bool} {object : RequestObject}
    {start : GatewayConnection} (found : start.requests[id]? = some object) :
    Ends (dispatchRequest world id admitted) start (Answers world id object.request.method admitted start)
      (fun _ _ => True) := by
  refine (ends_bind_run (requestObject_found found)).mpr (.ite (fun _ => ?_) fun _ => ?_)
  · refine lift_bind (fun response _ => ?_) fun _ => trivial
    rw [ends_bind]
    exact (ends_unrecorded (closing_moves rfl) start).mono (fun _ _ =>
      publishResponse_answers world response)
      fun _ _ _ => trivial
  · rw [ends_bind]
    refine (ends_unrecorded (nowMs_moves world) start).mono (fun now first same => ?_) fun _ _ _ => trivial
    refine .ite (fun _ => requestTimeout_answers world same) fun _ => ?_
    rw [ends_bind]
    refine (ends_unrecorded (ask_moves world World.dispatch) first).mono
      (fun result second asked => ?_) fun _ _ _ => trivial
    -- The deadline may have passed while the handler ran.
    have later {answer : Call Bool} (answered : ∀ third : GatewayConnection, third.trace = start.trace →
        Ends answer third (Answers world id object.request.method admitted start) (fun _ _ => True)) :
        Ends (do
          let now ← nowMs world
          if object.cancellation.deadlineMs ≤ now then
            let response ← requestTimeout world id
            publishResponse world id object.request.method response admitted
          else answer) second (Answers world id object.request.method admitted start) (fun _ _ =>
            True) := by
      rw [ends_bind]
      refine (ends_unrecorded (nowMs_moves world) second).mono (fun now third again => ?_)
        fun _ _ _ => trivial
      have unrecorded : third.trace = start.trace := again.trans (asked.trans same)
      exact .ite (fun _ => requestTimeout_answers world unrecorded) fun _ => answered third unrecorded
    cases result with
    | proxy plan =>
      refine modify_bind.mpr fun none => ?_
      cases none
    | response response => exact later fun _ => publishResponse_answers world response
    | other => exact later fun _ _ => trivial

/-- The state in which `finishRequest` decides what to answer. -/
def taken (id : Nat) (connection : GatewayConnection) : GatewayConnection :=
  { connection with
    currentRequest := none
    currentAdmitted := false
    requests := connection.requests.modify id fun object => { object with body := object.body.finish } }

/-- The same decision at the end of every request; only its flow, the configuration and the server
have a say. -/
theorem retire_closing {published last : GatewayConnection} (flow : last.flow = published.flow)
    (config : last.config = published.config) (tick : last.tick = published.tick) :
    Ends (do
      modify fun connection => { connection with requestsCompleted := connection.requestsCompleted + 1 }
      retire world : Call Unit) last
      (fun _ after => after.closeAfterFlush = true ↔ Closing world published.tick published)
        (fun _ _ => True) := by
  refine modify_bind.mpr ((retire_closes world last).trans ?_)
  rw [tick]
  exact closing_congr flow config

/-- A request whose response was published whole ends with the decision whether the connection goes on. -/
theorem finishRequest_closing {id : Nat} {start published : GatewayConnection} {object : RequestObject}
    (current : start.currentRequest = some id) (found : (start.taken id).requests[id]? = some object)
    (unowned : ¬ (start.pendingProxy.map (·.2) = some id ∨ start.pendingLocal = some id))
    (dispatched : dispatchRequest world id start.currentAdmitted (start.taken id) = (published, .ok false))
    (own : published.pendingProxy = none ∧ published.pendingStream = none) :
    Ends (finishRequest world) start
      (fun _ after => after.closeAfterFlush = true ↔ Closing world published.tick published)
      (fun _ _ => True) := by
  have attempted : attempt (dispatchRequest world id start.currentAdmitted) (start.taken id) =
      (published, .ok (.ok false)) := by
    unfold attempt
    rw [dispatched]
  have kept : (published.pendingProxy.isSome || published.pendingStream.isSome) = false := by
    rw [own.1, own.2]; rfl
  unfold finishRequest
  rw [get_bind, modify_bind, current]
  refine modify_bind.mpr (.ite (fun owned => absurd owned unowned) fun _ => ?_)
  refine (ends_bind_run (requestObject_found found)).mpr ((ends_bind_run attempted).mpr ?_)
  refine (ends_bind_run (show recoverOverflow world _ (.ok false) published =
    (published, .ok none) from rfl)).mpr ?_
  refine get_bind.mpr (ends_bind.mpr (ends_when (fun _ => ?_) fun owned => absurd kept owned))
  have closes (last : GatewayConnection) (flow : last.flow = published.flow)
    (config : last.config = published.config)
      (tick : last.tick = published.tick) : Ends (changeBody id BodyStream.close) last (fun _ closed =>
        Ends (raiseFirst none >>= fun _ =>
            when ((published.pendingProxy.isSome || published.pendingStream.isSome) = false) do
          modify fun connection => { connection with requestsCompleted := connection.requestsCompleted + 1 }
          retire world) closed
        (fun _ after => after.closeAfterFlush = true ↔ Closing world published.tick published)
          fun _ _ => True)
      (fun _ _ => True) :=
    ends_bind.mpr (ends_when (fun _ => retire_closing world flow config tick) fun owned =>
      absurd kept owned)
  exact ends_bind.mpr (ends_when (fun _ => closes _ rfl rfl rfl) fun _ => closes _ rfl rfl rfl)

theorem completeLocalHandlerResponse_closing {id : Nat} {result : Dispatched} {object : RequestObject}
    {response : Response} {start published : GatewayConnection} (found : start.requests[id]? = some object)
    (answer : handlerResponse result start = (start, .ok response))
    (publishes : publishResponse world id object.request.method response true start =
      (published, .ok false)) :
    Ends (completeLocalHandlerResponse world id result) start
      (fun _ after => after.closeAfterFlush = true ↔ Closing world published.tick published)
      (fun _ _ => True) := by
  have attempted : attempt (publishResponse world id object.request.method response true) start =
      (published, .ok (.ok false)) := by
    unfold attempt
    rw [publishes]
  unfold completeLocalHandlerResponse
  refine (ends_bind_run (requestObject_found found)).mpr
    ((ends_bind_run answer).mpr ((ends_bind_run attempted).mpr ?_))
  exact @retire_closing world published
    (changeBody id BodyStream.close (release .request published).1).1 rfl rfl rfl

/-- A proxied response also closes the connection when the request's body is not over. -/
theorem finishProxy_closing {id : Nat} {object : RequestObject} {start : GatewayConnection}
    (pending : start.pendingProxy.map (·.2) = some id) (found : start.requests[id]? = some object) :
    Ends (finishProxy world id) start (fun _ after => after.closeAfterFlush = true ↔
      object.body.ended = false ∨ Closing world start.tick start) (fun _ _ => True) := by
  unfold finishProxy
  rw [get_bind]
  refine .ite (fun other => absurd pending other) fun _ => modify_bind.mpr ?_
  have ends (last : GatewayConnection) (config : last.config = start.config) (tick : last.tick = start.tick)
      (flow : last.flow = { start.flow with closeAfterFlush := last.closeAfterFlush })
      (closing : last.closeAfterFlush = true ↔ object.body.ended = false ∨ start.closeAfterFlush = true) :
      Ends (do
        changeBody id BodyStream.close
        release .request
        modify fun connection => { connection with requestsCompleted := connection.requestsCompleted + 1 }
        retire world : Call Unit) last
        (fun _ after => after.closeAfterFlush = true ↔ object.body.ended = false ∨
          Closing world start.tick start)
        (fun _ _ => True) := by
    have retires := @retire_closing world last
      (release .request (changeBody id BodyStream.close last).1).1 rfl rfl rfl
    refine retires.mono (fun _ after closes => closes.trans ?_) fun _ _ _ => trivial
    unfold Closing
    rw [config, tick, show last.currentKeepAlive = start.currentKeepAlive from congrArg
      Flow.currentKeepAlive flow,
      show last.requestsCompleted = start.requestsCompleted from congrArg Flow.requestsCompleted flow,
      closing, or_assoc]
  have rest (owned : GatewayConnection) (requests : owned.requests = start.requests)
      (config : owned.config = start.config)
      (tick : owned.tick = start.tick) (flow : owned.flow = start.flow) :
      Ends (do
        let object ← requestObject id
        when (object.body.ended = false) do
          modify fun connection => { connection with closeAfterFlush := true }
          when (object.cancellation.cancelled = false)
            (cancelRequest id "proxy completed before request body end")
          changeBody id BodyStream.cancel
        changeBody id BodyStream.close
        release .request
        modify fun connection => { connection with requestsCompleted := connection.requestsCompleted + 1 }
        retire world : Call Unit) owned
        (fun _ after => after.closeAfterFlush = true ↔ object.body.ended = false ∨
          Closing world start.tick start)
        (fun _ _ => True) := by
    have here : owned.requests[id]? = some object := by rw [requests, found]
    have marked : (⟨owned.currentKeepAlive, owned.requestsCompleted, true⟩ : Flow) =
        { start.flow with closeAfterFlush := true } := by rw [← flow]; rfl
    refine (ends_bind_run (requestObject_found here)).mpr (ends_bind.mpr (ends_when (fun cut =>
      modify_bind.mpr ?_) fun whole => ?_))
    · have all := iff_of_true (a := true = true) rfl
        (.inl cut : object.body.ended = false ∨ start.closeAfterFlush = true)
      exact ends_bind.mpr (ends_when (fun _ => ends _ config tick marked all) fun _ =>
        ends _ config tick marked all)
    · refine ends owned config tick ?_ ?_
      · rw [← flow]
        rfl
      · rw [show owned.closeAfterFlush = start.closeAfterFlush from congrArg Flow.closeAfterFlush flow]
        exact ⟨.inr, fun closing => closing.resolve_left whole⟩
  exact ends_bind.mpr (ends_when (fun _ => rest _ rfl rfl rfl rfl) fun _ => rest _ rfl rfl rfl rfl)

end Written

end GatewayConnection

namespace ProxyExchange

/-- The head of a proxied response is chunked for a body of unknown length only, and carries a length
that the upstream gave unless the status does not allow one. -/
theorem forwardEvent_written {head : UpstreamResponseHead} (final : head.informational = false)
    (before : Transition) (exchange : ProxyExchange) :
    Method.Ends (forwardEvent before (.responseHead head)) exchange
      (fun _ next => ∃ fields data start grown,
      WrittenResponse data head.status fields [] ∧ appendDownstream data start = (next, .ok grown) ∧
      (Names fields "transfer-encoding" ↔ head.Unmeasured) ∧
      (Names fields "content-length" ↔ head.Measured exchange.method)) (fun _ _ => True) := by
  unfold forwardEvent
  refine (Method.ends_bind_run (Method.get_run exchange)).mpr ?_
  rw [final]
  change Method.Ends (forwardFinalHead head before) exchange _ _
  unfold Method.Ends
  split
  · rename_i next transition run
    obtain ⟨_, _, committed, later⟩ := Method.bind_eq_ok_iff.mp run
    cases committed
    obtain ⟨_, _, read, later⟩ := Method.bind_eq_ok_iff.mp later
    cases read
    obtain ⟨_, data, lifted, grows⟩ := Method.bind_eq_ok_iff.mp later
    obtain ⟨rfl, encoded⟩ := Method.lift_eq_ok_iff.mp lifted
    obtain ⟨_, grown, appended, result⟩ := Method.bind_eq_ok_iff.mp grows
    cases result
    obtain ⟨fields, written, length, coding⟩ := Http1ResponseEncoder.head_written encoded
    refine ⟨fields, data, _, grown, written, appended, ?_, length.trans ?_⟩
    · simpa [UpstreamResponseHead.Unmeasured] using coding
    · unfold UpstreamResponseHead.Measured
      cases expected : head.bodyExpected
      · simp only [Bool.false_and, Bool.false_eq_true, if_false, true_and, false_or]
        split <;> grind
      · simp only [Bool.true_and, decide_eq_true_eq, Bool.true_eq_false, false_and, if_false,
          true_or, and_true]
        split <;> omega
  · trivial

end ProxyExchange
namespace GatewayConnection

def plainResponse (status : Nat) (streaming : Bool)
    (final : decide (200 ≤ status ∧ status ≤ 599) = true) : Response where
  status := status
  body := .bytes []
  headers := []
  streaming := streaming
  final := of_decide_eq_true final

def streamed : Response := plainResponse 200 true rfl

def noContent : Response := plainResponse 204 false rfl

/-- A response that lasts until its upstream closes the connection. -/
def lastingHead : UpstreamResponseHead where
  status := 200
  reason := []
  version := .http11
  headers := []
  contentLength := -1
  chunked := false
  keepAlive := false
  informational := false
  bodyExpected := true

/-- An application that gives every request the same response. -/
def answering (response : Response) : World where
  dispatch := fun _ => .ok (.response response)

def oldGet : Bytes := ascii "GET / HTTP/1.0\r\nConnection: keep-alive\r\n\r\n"

/-- The connection when it has answered `oldGet`. -/
def oldAnswered (response : Response) : GatewayConnection :=
  (feedData (answering response) oldGet 1 (init {})).1

def queuedBytes (connection : GatewayConnection) : List Bytes :=
  connection.trace.filterMap fun entry =>
    match entry with
    | .queued data => some data
    | _ => none

theorem returns_of_isOk {σ ε α : Type} {result : σ × Except ε α} (ok : result.2.isOk = true) :
    ∃ after a, result = (after, .ok a) := by
  obtain ⟨after, error | a⟩ := result
  · exact absurd ok Bool.false_ne_true
  · exact ⟨after, a, rfl⟩

end GatewayConnection
end PccGateway
