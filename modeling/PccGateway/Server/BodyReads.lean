import PccGateway.Server.Reach

namespace PccGateway
namespace GatewayConnection
open Thread Method

/-- Everything but what an attempt records of a request's body. -/
def unreading (effect : Effect) : Prop := effect ≠ .entry .body

theorem serving_le_unreading : serving ≤ unreading := fun effect serves => by
  rintro rfl
  exact serves

theorem relaying_le_unreading : relaying ≤ unreading := fun effect relays => by
  rintro rfl
  exact relays

/-- A pass of the body loop began without the end of a body that makes its reader wait. -/
def Hasty (connection : GatewayConnection) : Prop := .bodyPass false ∈ connection.trace

/-- Unless a pass was hasty, every body was read when it was ready. -/
def ReadsReady (connection : GatewayConnection) : Prop :=
  ¬ connection.Hasty → ∀ body, .bodyRead body ∈ connection.trace → body.Ready

/-- A reader of this body never waits again. -/
def BodySettled (id : Nat) (connection : GatewayConnection) : Prop :=
  ∃ object, connection.requests[id]? = some object ∧
    (object.body.ended = true ∨ object.body.streaming = false)

/-- What the reads of a body start from. -/
def ReadsOn (id : Nat) (connection : GatewayConnection) : Prop :=
  connection.ReadsReady ∧ (connection.Hasty ∨ connection.BodySettled id)

section Moves
variable {E : Effect → Prop} {before after : GatewayConnection} {id : Nat}

theorem Hasty.of_moves (moves : Moves E before after) (hasty : before.Hasty) : after.Hasty := by
  obtain ⟨added, grown, -⟩ := moves.trace
  unfold Hasty
  rw [grown]
  exact List.mem_append_left _ hasty

theorem BodySettled.of_moves (moves : Moves E before after) (settled : before.BodySettled id) :
    after.BodySettled id := by
  obtain ⟨object, found, isOver⟩ := settled
  obtain ⟨object', found', grows⟩ := moves.requests id object found
  refine ⟨object', found', isOver.imp grows.ended fun polls => ?_⟩
  rw [grows.streaming]
  exact polls

theorem ReadsReady.of_moves (moves : Moves unreading before after) (ready : before.ReadsReady) :
    after.ReadsReady := by
  intro patient body read
  obtain ⟨added, grown, kinds⟩ := moves.trace
  rw [grown] at read
  rcases List.mem_append.mp read with old | new
  · exact ready (fun hasty => patient (hasty.of_moves moves)) body old
  · exact absurd rfl (kinds _ new)

theorem ReadsOn.of_moves (moves : Moves unreading before after) (on : before.ReadsOn id) :
    after.ReadsOn id :=
  ⟨on.1.of_moves moves, on.2.imp (·.of_moves moves) (·.of_moves moves)⟩

end Moves

section Reads
variable {world : World} {id : Nat}

variable (world) in
theorem carries_ready : Carries world unreading (Keeps ReadsReady) where
  calm := fun _ _ moves ready => ready.of_moves moves
  feed := fun data maxMessages =>
    (feedData_moves world serving_le_unreading data maxMessages).mono fun _ _ moves => .of_moves moves
  consume := fun id => (consumePendingBodyEvents_moves world serving_le_unreading id).mono fun _ _
    moves => .of_moves moves
  timeout := fun phase =>
    (deadlineTimeout_moves world serving_le_unreading phase).mono fun _ _ moves => .of_moves moves

theorem carries_readsOn : Carries world unreading (Keeps (ReadsOn id)) where
  calm := fun _ _ moves on => on.of_moves moves
  feed := fun data maxMessages =>
    (feedData_moves world serving_le_unreading data maxMessages).mono fun _ _ moves => .of_moves moves
  consume := fun id => (consumePendingBodyEvents_moves world serving_le_unreading id).mono fun _ _
    moves => .of_moves moves
  timeout := fun phase =>
    (deadlineTimeout_moves world serving_le_unreading phase).mono fun _ _ moves => .of_moves moves

/-- A read of a body whose reader never waits again. -/
theorem readBodyChunk_readsOn : Evolves (Keeps (ReadsOn id)) (readBodyChunk id) := by
  intro connection on
  unfold readBodyChunk
  rw [bind_run]
  cases found : connection.requests[id]? with
  | none =>
    rw [requestObject_missing found]
    exact on
  | some object =>
    rw [requestObject_found found]
    have moved := onBody_moves (E := unreading) id BodyStream.grows_readChunk
    have noted : ReadsOn id { connection with trace := connection.trace ++ [.bodyRead object.body] } := by
      refine ⟨fun patient body read => ?_, on.2.imp (List.mem_append_left _) fun settled => settled⟩
      have patient' : ¬ connection.Hasty := fun hasty => patient (List.mem_append_left _ hasty)
      rcases List.mem_append.mp read with old | new
      · exact on.1 patient' body old
      · obtain ⟨other, found', isOver⟩ := on.2.resolve_left patient'
        cases found.symm.trans found'
        cases List.mem_singleton.mp new
        exact isOver.elim (fun ended => .inr (.inl ended)) fun polls => .inr (.inr (.inr (.inr polls)))
    exact noted.of_moves (moved _)

theorem forwardChunks_readsOn (fuel : Nat) (handle : Int) :
    Evolves (Keeps (ReadsOn id)) (forwardChunks world fuel handle id) :=
  forwardChunks_around carries_readsOn relaying_le_unreading fuel readBodyChunk_readsOn handle

/-- The end of the current request settles its body. -/
theorem finishRequest_settles {connection : GatewayConnection}
    (current : connection.currentRequest = some id) {object : RequestObject}
    (found : connection.requests[id]? = some object) :
    Ends (finishRequest world) connection (fun _ after => after.BodySettled id) (fun _ _ => True) := by
  unfold finishRequest
  rw [get_bind, modify_bind]
  simp only [current]
  unfold changeBody changeRequest
  rw [modify_bind]
  have settled : BodySettled id { connection with
      currentRequest := none
      currentAdmitted := false
      requests := connection.requests.modify id fun object =>
        { object with body := object.body.finish } } :=
    ⟨{ object with body := object.body.finish }, by simp [found], .inl rfl⟩
  refine Ends.mono (Evolves.ends (R := Moves serving)
    (.ite (.pure _) (.bind (requestObject_moves id) fun object => ?_)))
    (fun _ after moves => settled.of_moves moves) fun _ _ _ => trivial
  refine .bind (.attempt (dispatchRequest_moves world le_rfl id _)) fun outcome => ?_
  refine .bind (recoverOverflow_moves world replying_le_serving _ outcome) fun error =>
    .bind .get fun after => ?_
  refine .bind (.when (.bind (.when (release_moves settling_le_serving)) fun _ =>
    changeBody_moves id fun _ => BodyStream.grows_close)) fun _ => .bind (.raiseFirst error) fun _ => ?_
  exact .when (.bind (completed_moves trivial) fun _ => retire_moves world trivial)

/-- A body's events leave its request current; its end settles it. -/
theorem handleEvent_current {event : Event} (body : isHead event = false) {connection : GatewayConnection}
    (current : connection.currentRequest = some id) {object : RequestObject}
    (found : connection.requests[id]? = some object) :
    Ends (handleEvent world event) connection (fun _ after =>
      after.BodySettled id ∨ event.isEnd = false ∧ after.currentRequest = some id ∧ ∃ object',
        after.requests[id]? = some object')
      (fun _ _ => True) := by
  cases event with
  | requestHead head => cases body
  | bodyChunk data =>
    have feeds : Evolves (Moves (· = .entry .event)) (do
        let _ ← ensuring (onBody id (Thread.call (BodyStream.feed data))) (note (.chunkReleased data))
        return () : Call Unit) :=
      .bind (.ensuring (onBody_moves id fun body =>
        Evolves.call (R := BodyStream.Grows) (BodyStream.grows_feed data) body)
        (note_moves rfl)) fun _ => .pure _
    unfold handleEvent note
    rw [modify_bind, get_bind]
    simp only [current]
    refine feeds.ends.mono (fun _ after moves => .inr ⟨rfl, ?_, ?_⟩) fun _ _ _ => trivial
    · have owners := moves.owners.resolve_left nofun
      exact congrArg Owners.currentRequest owners
    · obtain ⟨object', found', -⟩ := moves.requests id object found
      exact ⟨object', found'⟩
  | requestEnd trailers =>
    unfold handleEvent note
    rw [modify_bind, get_bind]
    simp only [current]
    unfold changeRequest
    rw [modify_bind]
    have ended := @finishRequest_settles world id { connection with
      trace := connection.trace ++ [.handled (.requestEnd trailers)]
      requests := connection.requests.modify id fun object =>
        { object with request := { object.request with trailers := trailers } } }
      current { object with request := { object.request with trailers := trailers } } (by simp [found])
    rw [← current]
    exact ended.mono (fun _ _ settled => .inl settled) fun _ _ _ => trivial

/-- When the end of the body is among its events, they settle it. -/
theorem consumeEvents_settles (events : List Event) {connection : GatewayConnection}
    (current : connection.currentRequest = some id)
    {object : RequestObject} (found : connection.requests[id]? = some object)
    (decoded : (events.takeWhile fun event => !isHead event).any Event.isEnd = true) :
    Ends (consumeEvents world id events) connection (fun _ after => after.BodySettled id)
      (fun _ _ => True) := by
  induction events generalizing connection object with
  | nil => cases decoded
  | cons event rest ih =>
    have body : isHead event = false := by
      cases head : isHead event with
      | false => rfl
      | true => simp [head] at decoded
    unfold consumeEvents
    rw [get_bind, if_pos ⟨current, body⟩, ends_bind, ends_attempt]
    refine (handleEvent_current body current found).mono (fun _ after handled => ?_) fun halt after _ => ?_
    · rcases handled with settled | ⟨chunk, current', object', found'⟩
      · refine (consumeEvents_moves world serving_le_unreading id rest).ends.mono
          (fun _ last moves => ?_) fun _ _ _ => trivial
        exact settled.of_moves moves
      · refine ih current' found' ?_
        simpa [List.takeWhile_cons, body, chunk] using decoded
    · cases halt with
      | raised error => exact trivial
      | parked => exact trivial
      | unfinished => exact trivial

/-- The first half of a pass: the events that wait are handled, and then the body is settled or the
pass was hasty. -/
theorem consumePendingBodyEvents_readsOn {connection : GatewayConnection}
    (ready : connection.ReadsReady) {object : RequestObject}
    (found : connection.requests[id]? = some object) :
    Ends (consumePendingBodyEvents world id) { connection with
      trace := connection.trace ++ [.bodyPass (!object.body.streaming || connection.bodyDecoded id)] }
      (fun _ => ReadsOn id) (fun _ => ReadsReady) := by
  have noted (flag : Bool) :
      ReadsReady { connection with trace := connection.trace ++ [.bodyPass flag] } := by
    intro patient body read
    have old : .bodyRead body ∈ connection.trace := by simpa using read
    exact ready (fun hasty => patient (List.mem_append_left _ hasty)) body old
  have on {flag : Bool} (settled : flag = false ∨ connection.BodySettled id) :
      Ends (consumePendingBodyEvents world id)
        { connection with trace := connection.trace ++ [.bodyPass flag] }
        (fun _ => ReadsOn id) (fun _ => ReadsReady) := by
    refine (Method.evolves_keeps_iff.mp (carries_readsOn.consume id) _ ⟨noted flag, ?_⟩).mono
      (fun _ _ on => on) fun _ _ on => on.1
    refine settled.imp (fun short => ?_) fun settled => settled
    exact List.mem_append_right _ (short ▸ List.mem_cons_self)
  cases waits : object.body.streaming with
  | false => exact on (.inr ⟨object, found, .inr waits⟩)
  | true =>
    cases decoded : connection.bodyDecoded id with
    | false => exact on (.inl rfl)
    | true =>
      obtain ⟨current, isOver⟩ : connection.currentRequest = some id ∧
          (connection.deferredEvents.takeWhile fun event => !isHead event).any Event.isEnd = true := by
        simpa only [bodyDecoded, Bool.and_eq_true, decide_eq_true_eq] using decoded
      have kept := Method.evolves_keeps_iff.mp ((carries_ready world).consume id) _ (noted true)
      have settles : Ends (consumePendingBodyEvents world id) { connection with
          trace := connection.trace ++ [.bodyPass true] }
          (fun _ after => after.BodySettled id) (fun _ _ => True) := by
        unfold consumePendingBodyEvents
        rw [get_bind, modify_bind]
        exact consumeEvents_settles connection.deferredEvents current found isOver
      exact (kept.and settles).mono (fun _ _ both => ⟨both.1, .inr both.2⟩) fun _ _ both => both.1

/-- A call that keeps `P`, and what follows it. -/
theorem keeps_bind {α β : Type} {P : GatewayConnection → Prop} {call : Call β} {next : β → Call α}
    {connection : GatewayConnection}
    {ok : α → GatewayConnection → Prop} (keeps : Evolves (Keeps P) call) (holds : P connection)
    (weaker : ∀ after, P after → after.ReadsReady)
    (later : ∀ b after, P after → Ends (next b) after ok (fun _ => ReadsReady)) :
    Ends (call >>= next) connection ok (fun _ => ReadsReady) :=
  ends_bind.mpr ((Method.evolves_keeps_iff.mp keeps connection holds).mono later fun _ after =>
    weaker after)

theorem requestObject_bind {α : Type} {next : RequestObject → Call α} {connection : GatewayConnection}
    {ok : α → GatewayConnection → Prop}
    {bad : Halt Exn → GatewayConnection → Prop} (missing : bad (.raised (.lookup "request")) connection)
    (found : ∀ object, connection.requests[id]? = some object → Ends (next object) connection ok bad) :
    Ends (requestObject id >>= next) connection ok bad := by
  rw [ends_bind]
  unfold Ends
  cases there : connection.requests[id]? with
  | none =>
    rw [requestObject_missing there]
    exact missing
  | some object =>
    rw [requestObject_found there]
    exact found object there

/-- The body loop ends with a failure or with a body whose reader never waits again. -/
theorem forwardBody_reads (fuel : Nat) (handle : Int) {connection : GatewayConnection}
    (ready : connection.ReadsReady) :
    Ends (forwardBody world fuel handle id) connection
      (fun failure after => after.ReadsReady ∧ (failure = none → after.ReadsOn id))
      (fun _ => ReadsReady) := by
  have quiet := carries_ready world
  refine @ends_loop _ _ _ _ _ _ _ _ (fun _ => ReadsReady) (fun _ c ready => ?_) (fun _ _ ready =>
    ready) fuel () ready
  refine requestObject_bind ready fun object found => ?_
  refine .ite (fun ended => ⟨ready, fun _ => ⟨ready, .inr ⟨object, found, .inl ended⟩⟩⟩) fun _ => ?_
  unfold note
  rw [get_bind, modify_bind, ends_bind]
  refine (consumePendingBodyEvents_readsOn ready found).mono (fun _ c on => ?_) fun _ _ ready => ready
  refine keeps_bind (forwardChunks_readsOn fuel handle) on (fun _ on => on.1) fun failure c on => ?_
  cases failure with
  | some failure => exact ⟨on.1, nofun⟩
  | none =>
    refine requestObject_bind on.1 fun object found => .ite (fun _ => ⟨on.1, fun _ => on⟩) fun _ => ?_
    refine keeps_bind (quiet.of_moves (proxyDeadlineFailure_moves id)) on.1 (fun _ ready => ready)
      fun failure c ready => ?_
    cases failure with
    | some failure => exact ⟨ready, nofun⟩
    | none =>
      refine keeps_bind (quiet.of_moves (proxyRemainingMs_moves id)) ready (fun _ ready => ready)
        fun budget c ready => ?_
      refine keeps_bind (proxyReadDownstreamBody_carried quiet
        (observing_le_relaying.trans relaying_le_unreading) id budget) ready
        (fun _ ready => ready) fun failure c ready => ?_
      cases failure with
      | some failure => exact ⟨ready, nofun⟩
      | none => exact ready

theorem sendRequest_ready (fuel : Nat) (plan : ProxyPlan) (pooled : PooledUpstreamConnection) :
    Evolves (Keeps ReadsReady) (sendRequest world fuel plan pooled id) := by
  have quiet := carries_ready world
  have writes := proxyWriteQueued_carried quiet relaying_le_unreading fuel pooled.handle id
  have last : Evolves (Keeps ReadsReady) (do
      let object ← requestObject id
      let _ ← onExchange world (ProxyExchange.finishRequest object.request.trailers)
      proxyWriteQueued world fuel pooled.handle id : Call (Option Failure)) :=
    .bind (quiet.of_moves (requestObject_moves id)) fun object =>
      .bind (quiet.of_moves (onExchange_moves nofun nofun
      (.inr (ProxyExchange.finishRequest_reception _)))) fun _ => writes
  refine .bind (quiet.of_moves (requestObject_moves id)) fun object => ?_
  refine .bind (quiet.of_moves (.modify fun connection => { Moves.still connection with
    deadline := .inl nofun })) fun _ => ?_
  refine .bind (quiet.of_moves (lift_moves _)) fun target => .bind .get fun connection => ?_
  refine .bind (quiet.of_moves (.modify fun connection => { Moves.still connection with
    buffered := .inl nofun })) fun _ => ?_
  refine .bind (quiet.of_moves (lift_moves _)) fun exchange => ?_
  refine .bind (quiet.of_moves (.modify fun connection => { Moves.still connection with
    exchange := .inl nofun
    response := .inl nofun })) fun _ => ?_
  refine .bind writes fun failure => ?_
  split
  · exact .pure _
  refine Method.evolves_keeps_iff.mpr fun c ready => ends_bind.mpr ?_
  refine (forwardBody_reads fuel pooled.handle ready).mono (fun failure c sent => ?_) fun _ _ ready => ready
  obtain ⟨ready, settled⟩ := sent
  cases failure with
  | some failure => exact ready
  | none =>
    refine keeps_bind (forwardChunks_readsOn fuel pooled.handle) (settled rfl) (fun _ on => on.1)
      fun failure c on => ?_
    cases failure with
    | some failure => exact on.1
    | none => exact Method.evolves_keeps_iff.mp last c on.1

theorem runGatewayProxy_ready (fuel : Nat) : Evolves (Keeps ReadsReady) (runGatewayProxy world fuel) := by
  have quiet := carries_ready world
  have allowed : unread attempting ≤ unreading := fun effect is => is.2
  refine .bind .get fun connection => ?_
  split
  · exact .pure _
  · refine .ensuring
      (driveProxy_around quiet fuel (fun pooled => sendRequest_ready fuel _ pooled) allowed ?_)
      (quiet.of_moves (finishProxy_moves world serving_le_unreading _))
    exact quiet.of_moves (closing_moves nofun)

theorem serves_ready (fuel : Nat) : Serves world fuel unreading (Keeps ReadsReady) where
  toCarries := carries_ready world
  resume := (carries_ready world).of_moves (resumeDeferredEvents_moves world serving_le_unreading)
  child := (carries_ready world).of_moves (drivePendingLocal_moves world serving_le_unreading)
  stream := (carries_ready world).of_moves (driveStreamingResponse_moves world serving_le_unreading)
  eof := (carries_ready world).of_moves (inputEof_moves world serving_le_unreading)
  proxy := runGatewayProxy_ready fuel

/-- In every run that is not hasty, every read of a body finds it ready. -/
theorem runGatewayConnection_ready (fuel : Nat) :
    Evolves (Keeps ReadsReady) (runGatewayConnection world fuel) := by
  have serves := @serves_ready world fuel
  have quiet := carries_ready world
  refine .bind (.attempt (serveConnection_carried serves relaying_le_unreading)) fun outcome =>
    .bind .get fun connection => ?_
  refine .bind (.settle_cons (.when (quiet.of_moves (cancelAndJoinPendingLocal_moves world
    serving_le_unreading _))) .settle_nil)
    fun childError => .bind .get fun connection => ?_
  refine .bind (.settle_cons (.when (quiet.of_moves (runTlsCloseNotify_moves world fuel))) (.settle_cons
    (.when (quiet.of_moves (close_moves world serving_le_unreading nofun _))) .settle_nil))
      fun closeError => ?_
  cases outcome with
  | error primary => exact .raise _
  | ok reason => exact .raiseFirst _

end Reads

/-- In every run of a connection, `read_chunk` is called for an attempt only on a body that has
something to return, so that the owner of the connection never waits there for an event that only it
could set. What is assumed is about the passes of the request body loop: each begins with a body
that is not streaming, or with the end of the body already decoded. The condition is on the state in
front of the pass, as the trace has recorded it. Nothing is assumed about the peers, the handlers,
the pool, the clock or the length of the run. -/
theorem body_reads_ready (world : World) (fuel : Nat) (connection : GatewayConnection)
    (fresh : connection.Fresh)
    (decoded : ∀ complete, .bodyPass complete ∈ (runGatewayConnection world fuel connection).1.trace →
      complete = true)
    (body : BodyStream)
    (read : .bodyRead body ∈ (runGatewayConnection world fuel connection).1.trace) : body.Ready := by
  obtain ⟨config, clientIp, fd, tls, resolver, dnsTransport, proxyPools, rfl⟩ := fresh
  refine runGatewayConnection_ready fuel _ (fun _ body read => ?_) (fun hasty => ?_) body read
  · cases read
  · cases decoded false hasty

/-- A client that sends `data` at once and then nothing, over a transport that streams bodies to local
handlers. -/
def bodyArrives (data : Bytes) : World where
  localBodyStreaming := true
  read := fun tick => if tick < 3 then .ok (.progress data) else .ok .eof
  write := fun _ data => .ok (.progress data.length)
  dispatchProxyHead := fun _ => .ok (some { upstream := "app".toList })
  poolReserve := fun _ => .ok (some { handle := -1, endpoint := ⟨"app".toList, 80⟩ })
  openUpstream := fun _ => .ok 7
  connectObserve := fun _ => .ok .connected
  upstreamWrite := fun _ data => .ok (.progress data.length)
  upstreamRead := fun _ => .ok .failed

def bodyRun (data : Bytes) : GatewayConnection × Except (Halt Exn) Unit :=
  runGatewayConnection (bodyArrives data) 12 { init {} with proxyPools := ["app".toList] }

def postHead : Bytes := ascii "POST / HTTP/1.1\r\nHost: a\r\nContent-Length: 1\r\n\r\n"

def bodyPasses (trace : List Entry) : List Bool := trace.filterMap fun
  | .bodyPass complete => some complete
  | _ => none

def bodyReads (trace : List Entry) : List BodyStream := trace.filterMap fun
  | .bodyRead body => some body
  | _ => none

theorem mem_bodyPasses {trace : List Entry} {complete : Bool} :
    complete ∈ bodyPasses trace ↔ .bodyPass complete ∈ trace := by
  unfold bodyPasses
  rw [List.mem_filterMap]
  constructor
  · rintro ⟨entry, member, is⟩
    split at is
    · cases is
      exact member
    · cases is
  · exact fun member => ⟨_, member, rfl⟩

theorem mem_bodyReads {trace : List Entry} {body : BodyStream} :
    body ∈ bodyReads trace ↔ .bodyRead body ∈ trace := by
  unfold bodyReads
  rw [List.mem_filterMap]
  constructor
  · rintro ⟨entry, member, is⟩
    split at is
    · cases is
      exact member
    · cases is
  · exact fun member => ⟨_, member, rfl⟩

/-- The body comes with the head: the one pass begins with its end decoded. -/
theorem body_reads_ready_whole : bodyPasses (bodyRun (postHead ++ ascii "x")).1.trace = [true] ∧
    (bodyReads (bodyRun (postHead ++ ascii "x")).1.trace).length = 3 ∧
    ∀ body ∈ bodyReads (bodyRun (postHead ++ ascii "x")).1.trace, body.Ready := by
  obtain ⟨passes, reads⟩ : bodyPasses (bodyRun (postHead ++ ascii "x")).1.trace = [true] ∧
      (bodyReads (bodyRun (postHead ++ ascii "x")).1.trace).length = 3 := by
    rw [postHead, ascii_ofList]
    decide +kernel
  refine ⟨passes, reads, fun body member => ?_⟩
  have fresh : Fresh { init {} with proxyPools := ["app".toList] } :=
    ⟨{}, [], 0, false, false, false, ["app".toList], rfl⟩
  unfold bodyRun at passes member
  -- the world stays a variable: the elaborator would run the connection
  generalize bodyArrives (postHead ++ ascii "x") = world at passes member
  refine body_reads_ready world 12 _ fresh (fun complete pass => ?_) body (mem_bodyReads.mp member)
  rw [← mem_bodyPasses, passes] at pass
  exact List.mem_singleton.mp pass

def isParked {α : Type} : Except (Halt Exn) α → Bool
  | .error .parked => true
  | _ => false

theorem isParked_iff {α : Type} {result : Except (Halt Exn) α} :
    isParked result = true ↔ result = .error .parked := by
  rcases result with (_ | _ | _) | _ <;> simp [isParked]

/-- The body does not come with the head: the owner waits for what only it could feed. -/
theorem body_read_parked :
    bodyPasses (bodyRun postHead).1.trace = [false] ∧ (bodyRun postHead).2 = .error .parked ∧
    ∃ body ∈ bodyReads (bodyRun postHead).1.trace, ¬ body.Ready := by
  obtain ⟨passes, parked, read⟩ : bodyPasses (bodyRun postHead).1.trace = [false] ∧
      isParked (bodyRun postHead).2 = true ∧
      (bodyReads (bodyRun postHead).1.trace).any (fun body => !decide body.Ready) = true := by
    rw [postHead, ascii_ofList]
    decide +kernel
  refine ⟨passes, ?_, ?_⟩
  · generalize (bodyRun postHead).2 = result at parked
    exact isParked_iff.mp parked
  · obtain ⟨body, member, waits⟩ := List.any_eq_true.mp read
    exact ⟨body, member, by simpa using waits⟩

end GatewayConnection
end PccGateway
