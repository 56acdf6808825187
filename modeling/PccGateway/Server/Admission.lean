import PccGateway.Server.RunFrame

namespace PccGateway
namespace GatewayConnection
open Thread Method

/-- A connection's contribution to `requests_active`: its admissions that it has not released. -/
def requestsActive (trace : List Entry) : Int :=
  (trace.count (.admitted .request) : Int) - trace.count (.released .request)

/-- The requests that a connection holds, and what it contributes to the count of active ones. -/
structure Held where
  current : Option Nat
  currentAdmitted : Bool
  proxy : Option Nat
  child : Option Nat
  stream : Option (Nat × Bool)
  requests : Nat
  active : Int

def held (connection : GatewayConnection) : Held where
  current := connection.currentRequest
  currentAdmitted := connection.currentAdmitted
  proxy := connection.pendingProxy.map (·.2)
  child := connection.pendingLocal
  stream := connection.pendingStream.map fun stream => (stream.request, stream.admitted)
  requests := connection.requests.length
  active := requestsActive connection.trace

namespace Held

/-- The number of places that own an admission. -/
def owners (held : Held) : Int :=
  (if held.currentAdmitted then 1 else 0) + (if held.proxy.isSome then
    1 else 0) + (if held.child.isSome then 1 else 0) + (if held.stream.elim false (·.2) then 1 else 0)

/-- The admissions are those of the owners, and `inHand` more that a running method is about to hand
over or to release. A pending response is alone, and the parser is idle or still reads its request. -/
structure Sound (inHand : Int) (held : Held) : Prop where
  active : held.active = held.owners + inHand
  proxy : ∀ id, held.proxy = some id → id < held.requests ∧ held.child = none ∧ held.stream = none ∧
    held.currentAdmitted = false ∧ (held.current = none ∨ held.current = some id)
  child : ∀ id, held.child = some id → id < held.requests ∧ held.proxy = none ∧ held.stream = none ∧
    held.currentAdmitted = false ∧ (held.current = none ∨ held.current = some id)
  stream : ∀ stream, held.stream = some stream → stream.1 < held.requests ∧ held.proxy = none ∧
    held.child = none ∧ held.current = none
  current : ∀ id, held.current = some id → id < held.requests
  idle : held.current = none → held.currentAdmitted = false

/-- No response is pending. -/
def Free (held : Held) : Prop := held.proxy = none ∧ held.child = none ∧ held.stream = none

def abort (held : Held) : Held :=
  match held.current with
  | none => held
  | some id => { held with
      current := none
      currentAdmitted := false
      active := if held.child = some id ∨ held.proxy = some id ∨ held.currentAdmitted = false then
        held.active
        else held.active - 1 }

def clear (held : Held) : Held := { held with current := none, currentAdmitted := false }

def dropProxy (held : Held) : Held :=
  if held.proxy.isSome then { held with proxy := none, active := held.active - 1 } else held

def dropStream (held : Held) : Held :=
  match held.stream with
  | none => held
  | some stream => { held with stream := none, active := if stream.2 then held.active - 1 else held.active }

/-- What a dispatched request can have become: still in the method's hand, or owned by someone else. -/
inductive Handed (id : Nat) (admitted : Bool) (held : Held) : Bool → Held → Prop
  | kept : Handed id admitted held false held
  | stream : Handed id admitted held true { held with stream := some (id, admitted) }
  | proxy (owned : admitted = true) : Handed id admitted held true { held with proxy := some id }

section Sound
variable {inHand : Int} {held : Held} (sound : held.Sound inHand)
include sound

theorem Sound.abort : held.abort.Sound inHand := by
  unfold Held.abort
  split
  · exact sound
  · rename_i id current
    obtain ⟨active, proxy, child, stream, valid, idle⟩ := sound
    refine ⟨?_, ?_, ?_, ?_, ?_, ?_⟩ <;> grind [Held.owners]

theorem Sound.dropProxy : held.dropProxy.Sound inHand := by
  obtain ⟨active, proxy, child, stream, valid, idle⟩ := sound
  unfold Held.dropProxy
  split
  · refine ⟨?_, ?_, ?_, ?_, ?_, ?_⟩ <;> grind [Held.owners]
  · exact ⟨active, proxy, child, stream, valid, idle⟩

theorem Sound.dropStream : held.dropStream.Sound inHand := by
  obtain ⟨active, proxy, child, stream, valid, idle⟩ := sound
  unfold Held.dropStream
  split
  · exact ⟨active, proxy, child, stream, valid, idle⟩
  · refine ⟨?_, ?_, ?_, ?_, ?_, ?_⟩ <;> grind [Held.owners]

/-- The parser lets go of its request. -/
theorem Sound.clear : held.clear.Sound (inHand + if held.currentAdmitted then 1 else 0) := by
  obtain ⟨active, proxy, child, stream, valid, idle⟩ := sound
  refine ⟨?_, ?_, ?_, ?_, ?_, ?_⟩ <;> grind [Held.owners, Held.clear]

/-- While the parser reads a request that nobody waits for, no response is pending. -/
theorem Sound.free {id : Nat} (current : held.current = some id) (notProxy : held.proxy ≠ some id)
    (notChild : held.child ≠ some id) : held.Free := by
  have absent {α : Type} {owner : Option α} (never : ∀ a, owner ≠ some a) : owner = none :=
    Option.eq_none_iff_forall_ne_some.mpr never
  refine ⟨absent fun other owned => ?_, absent fun other owned => ?_, absent fun other owned => ?_⟩
  · have := sound.proxy other owned
    grind
  · have := sound.child other owned
    grind
  · have := sound.stream other owned
    grind

/-- What was in hand is released. -/
theorem Sound.release {rest : Int} (more : inHand = rest + 1) :
    { held with active := held.active - 1 }.Sound rest := by
  obtain ⟨active, proxy, child, stream, valid, idle⟩ := sound
  refine ⟨?_, proxy, child, stream, valid, idle⟩
  rw [more] at active
  show held.active - 1 = held.owners + rest
  omega

/-- What was in hand has gone to an owner. -/
theorem Sound.handed {id : Nat} {admitted : Bool} (inside : inHand = if admitted then 1 else 0)
    (free : held.Free) (parser : held.current = none) (known : id < held.requests) {after : Held}
    (handed : Handed id admitted held true after) :
    after.Sound 0 := by
  obtain ⟨active, proxy, child, stream, valid, idle⟩ := sound
  obtain ⟨noProxy, noChild, noStream⟩ := free
  have refused := idle parser
  cases handed with
  | stream => refine ⟨?_, ?_, ?_, ?_, ?_, ?_⟩ <;> grind [Held.owners]
  | proxy owned => refine ⟨?_, ?_, ?_, ?_, ?_, ?_⟩ <;> grind [Held.owners]

end Sound

end Held

/-- Effects that leave the holders of requests alone. -/
def aside (effect : Effect) : Prop := effect ≠ .owners ∧ effect ≠ .entry .admission

theorem requestsActive_append (trace added : List Entry) :
    requestsActive (trace ++ added) = requestsActive trace + requestsActive added := by
  simp only [requestsActive, List.count_append]
  omega

theorem requestsActive_of_kinds {added : List Entry} (kinds : ∀ entry ∈ added, entry.kind ≠ .admission) :
    requestsActive added = 0 := by
  have admitted : added.count (.admitted .request) = 0 :=
    List.count_eq_zero.mpr fun member => kinds _ member rfl
  have released : added.count (.released .request) = 0 :=
    List.count_eq_zero.mpr fun member => kinds _ member rfl
  simp [requestsActive, admitted, released]

theorem held_of_moves {before after : GatewayConnection} (moves : Moves aside before after) :
    after.held = before.held := by
  have same := moves.owners.resolve_left fun allowed => allowed.1 rfl
  obtain ⟨added, grown, kinds⟩ := moves.trace
  have silent : requestsActive added = 0 := requestsActive_of_kinds fun entry member isAdmission =>
    (kinds entry member).2 (by rw [isAdmission])
  have active : requestsActive after.trace = requestsActive before.trace := by
    rw [grown, requestsActive_append, silent, Int.add_zero]
  simp only [GatewayConnection.owners, Owners.mk.injEq] at same
  simp only [held, same, active]

theorem writing_le_aside : writing ≤ aside := by
  intro effect allowed
  constructor <;>
  · rintro rfl
    exact allowed

theorem replying_le_aside : replying ≤ aside := by
  intro effect allowed
  constructor <;>
  · rintro rfl
    exact allowed

theorem sorting_le_aside : sorting ≤ aside := by
  intro effect allowed
  constructor <;>
  · rintro rfl
    exact allowed

theorem attempting_le_aside : attempting ≤ aside := by
  intro effect allowed
  constructor <;>
  · rintro rfl
    exact allowed

theorem release_held (connection : GatewayConnection) : Yields (release .request) connection
    (fun after => after.held = { connection.held with active := connection.held.active - 1 }) := by
  show GatewayConnection.held { connection with trace := connection.trace ++ [.released .request] } = _
  simp only [held, requestsActive_append]
  rfl

theorem changeRequest_held (id : Nat) (change : RequestObject → RequestObject)
    (connection : GatewayConnection) :
    Yields (changeRequest id change) connection (fun after => after.held = connection.held) := by
  simp [Yields, changeRequest, modify, held]

theorem changeBody_held (id : Nat) (change : BodyStream → BodyStream) (connection : GatewayConnection) :
    Yields (changeBody id change) connection (fun after => after.held = connection.held) :=
  changeRequest_held id _ connection

theorem abortCurrentRequest_held (reason : String) (connection : GatewayConnection) :
    Yields (abortCurrentRequest reason) connection (fun after => after.held = connection.held.abort) := by
  simp only [Yields, abortCurrentRequest, get, modify, changeBody, changeRequest, cancelRequest,
    release, note, ends_bind, ends_get]
  cases current : connection.currentRequest with
  | none => simp [held, Held.abort, current]
  | some id =>
    simp only [ends_bind, ends_modify]
    refine .ite (fun child => ?_) fun notChild => .ite (fun notProxy => ?_) fun proxy => ?_
    · simp [held, Held.abort, current, child]
    · simp only [ends_bind, ends_modify]
      refine ends_when (fun admitted => ?_) fun refused => ?_
      · simp [held, Held.abort, current, notChild, notProxy, admitted, requestsActive_append]
        rfl
      · simp [held, Held.abort, current, notChild, notProxy, refused]
    · obtain ⟨⟨plan, _⟩, pending, rfl⟩ := Option.map_eq_some_iff.mp (not_not.mp proxy)
      simp [held, Held.abort, current, pending]

theorem cancelPendingProxy_held (reason : String) (connection : GatewayConnection) :
    Yields (cancelPendingProxy reason) connection
      (fun after => after.held = connection.held.dropProxy) := by
  simp only [Yields, cancelPendingProxy, get, modify, changeBody, changeRequest, cancelRequest,
    release, note, ends_bind, ends_get]
  cases pending : connection.pendingProxy with
  | none => simp [held, Held.dropProxy, pending]
  | some proxy =>
    simp [held, Held.dropProxy, pending, requestsActive_append]
    rfl

theorem cancelPendingStream_held (reason : String) (connection : GatewayConnection) :
    Yields (cancelPendingStream reason) connection
      (fun after => after.held = connection.held.dropStream) := by
  simp only [Yields, cancelPendingStream, get, modify, changeBody, changeRequest, cancelRequest,
    release, note, ends_bind, ends_get]
  cases pending : connection.pendingStream with
  | none => simp [held, Held.dropStream, pending]
  | some stream =>
    simp only [ends_bind, ends_modify]
    refine ends_when (fun admitted => ?_) fun refused => ?_
    · simp [held, Held.dropStream, pending, admitted, requestsActive_append]
      rfl
    · simp [held, Held.dropStream, pending, refused]

variable (world : World)

theorem completeStreamingResponse_held (connection : GatewayConnection) :
    Ends (completeStreamingResponse world) connection
      (fun _ after => after.held = connection.held.dropStream)
      (fun _ after => after.held = connection.held.dropStream) := by
  simp only [completeStreamingResponse, get, ends_bind, ends_get]
  cases pending : connection.pendingStream with
  | none => simp [held, Held.dropStream, pending]
  | some stream =>
    simp only [ends_bind, modify, ends_modify]
    have closed (before : GatewayConnection) (taken : before.held = { connection.held with
      stream := none }) :
        Yields (settle [changeBody stream.request BodyStream.close,
          when stream.admitted (release .request)]) before
          (fun after => after.held = connection.held.dropStream) := by
      refine yields_settle_cons (changeBody_held _ _ _) fun left same => ?_
      refine yields_settle_cons (P := fun after => after.held = connection.held.dropStream) ?_ fun _
        gone => yields_settle_nil gone
      refine ends_when (fun admitted => (release_held left).mono fun after gone => ?_) fun refused => ?_
      · rw [gone, same, taken]
        simp [held, Held.dropStream, pending, admitted]
      · rw [same, taken]
        simp [held, Held.dropStream, pending, refused]
    have hooked (before : GatewayConnection) (taken : before.held = { connection.held with
      stream := none }) :
        Yields (settle [hook world, changeBody stream.request BodyStream.close,
          when stream.admitted (release .request)]) before
          (fun after => after.held = connection.held.dropStream) := by
      refine ends_settle_cons
        ((ask_ends (E := aside) world _ _).mono (fun _ after moved => ?_) fun halt after moved => ?_)
      · exact closed after ((held_of_moves moved).trans taken)
      · obtain ⟨⟨error, rfl⟩, moved⟩ := moved
        exact closed after ((held_of_moves moved).trans taken)
    refine (hooked _ (by simp [held])).ends fun error after gone => ?_
    refine (retire_moves (E := aside) world (by simp [aside])).ends.mono (fun _ last moved => ?_)
      fun _ last moved => ?_
    · cases error <;> exact (held_of_moves moved).trans gone
    · exact (held_of_moves moved).trans gone

section Prompt

theorem queueBytes_prompt (data : Bytes) : Prompt (queueBytes world data) := by
  have reserved : Prompt (reserveBuffered world data.length) := fun connection => by
    unfold Ends reserveBuffered
    by_cases room : connection.buffered + world.othersBuffered connection.tick + data.length ≤
      connection.config.maxBufferedBytes
    · rw [if_pos room]
      trivial
    · rw [if_neg room]
      trivial
  have released : Prompt (releaseBuffered world data.length) := fun connection => by
    unfold Ends releaseBuffered
    by_cases short : connection.buffered + world.othersBuffered connection.tick < data.length
    · rw [if_pos short]
      exact ⟨_, rfl⟩
    · rw [if_neg short]
      trivial
  have restarted : Prompt (restartWriteDeadline world) := .bind (ask_prompt world _) fun _ => .modify _
  refine .ite (.pure _)
    (.bind reserved fun _ => .ite (.raise _) (.bind (.attempted (.call _)) fun appended => ?_))
  cases appended with
  | error error => exact .bind released fun _ => .raise _
  | ok transition =>
    exact .bind (.modify _) fun _ => .bind .get fun _ => .bind (.when restarted) fun _ =>
      .when (ask_prompt world _)

theorem responsePayload_prompt (method : Text) (response : Response) :
    Prompt (responsePayload method response) :=
  .bind .get fun _ => .ite (.reraise _) (.bind (.reraise _) fun _ => .bind (.reraise _) fun _ => .pure _)

theorem queueText_prompt (method : Text) (body : String) (status : Nat) :
    Prompt (queueText world method body status) :=
  .bind (.reraise _) fun _ => .bind (responsePayload_prompt method _) fun _ => queueBytes_prompt world _

theorem publishResponse_prompt (id : Nat) (method : Text) (response : Response) (admitted : Bool) :
    Prompt (publishResponse world id method response admitted) := by
  refine .ite ?_ (.bind (responsePayload_prompt method response) fun _ =>
      .bind (queueBytes_prompt world _) fun _ =>
    .bind (ask_prompt world _) fun _ => .pure _)
  refine .bind (.bind (ask_prompt world _) fun _ => .bind .get fun _ =>
    .bind (.reraise _) fun _ => ?_) fun _ => .pure _
  exact .bind (queueBytes_prompt world _) fun _ => .modify _

theorem requestObject_prompt (id : Nat) : Prompt (requestObject id) := fun connection => by
  unfold Ends
  cases found : connection.requests[id]? with
  | some object =>
    rw [requestObject_found found]
    trivial
  | none =>
    rw [requestObject_missing found]
    exact ⟨_, rfl⟩

theorem requestTimeout_prompt (id : Nat) : Prompt (requestTimeout world id) :=
  .bind (.modify _) fun _ => .bind (ask_prompt world _) fun _ => .bind (.reraise _) fun _ =>
    .bind (.modify _) fun _ => .pure _

theorem dispatchRequest_prompt (id : Nat) (admitted : Bool) :
    Prompt (dispatchRequest world id admitted) := by
  have published (method : Text) (response : Response) :=
    publishResponse_prompt world id method response admitted
  have late (method : Text) : Prompt (do
      let response ← requestTimeout world id
      publishResponse world id method response admitted) :=
    .bind (requestTimeout_prompt world id) fun response => published method response
  refine .bind (requestObject_prompt id) fun object => .ite ?_ (.bind (ask_prompt world _) fun now =>
    .ite (late _) ?_)
  · exact .bind (.reraise _) fun response => .bind (.modify _) fun _ => published _ response
  · refine .bind (ask_prompt world _) fun result => ?_
    cases result with
    | proxy plan => exact .bind (.modify _) fun _ => .pure _
    | response response => exact .bind (ask_prompt world _) fun now => .ite (late _) (published _ response)
    | other => exact .bind (ask_prompt world _) fun now => .ite (late _) (.raise _)

end Prompt

section Handing
variable {world} {connection : GatewayConnection} {held : Held}

/-- A call that leaves the holders alone, and the rest. -/
theorem aside_bind {α β : Type} {call : Call β} {next : β → Call α} {ok : α → GatewayConnection → Prop}
    {bad : Halt Exn → GatewayConnection → Prop} (moves : Evolves (Moves aside) call)
    (same : connection.held = held)
    (later : ∀ b after, after.held = held → Ends (next b) after ok bad)
    (failed : ∀ halt after, after.held = held → bad halt after) :
    Ends (call >>= next) connection ok bad := by
  rw [ends_bind]
  refine moves.ends.mono (fun b after moved => later b after ?_) fun halt after moved =>
    failed halt after ?_
  · exact (held_of_moves moved).trans same
  · exact (held_of_moves moved).trans same

theorem aside_ends {α : Type} {call : Call α} (moves : Evolves (Moves aside) call)
    (same : connection.held = held) :
    Ends call connection (fun _ after => after.held = held) (fun _ after => after.held = held) :=
  moves.ends.mono (fun _ _ moved => (held_of_moves moved).trans same) fun _ _ moved =>
    (held_of_moves moved).trans same

theorem beginStreamingResponse_held (same : connection.held = held) (id : Nat) (response : Response)
    (admitted : Bool) :
    Ends (beginStreamingResponse world id response admitted) connection
      (fun _ after => after.held = { held with stream := some (id, admitted) })
      (fun _ after => after.held = held) := by
  refine aside_bind (ask_moves world _) same (fun _ c same => ?_) fun _ _ kept => kept
  refine aside_bind .get same (fun seen c same => ?_) fun _ _ kept => kept
  refine aside_bind (lift_moves _) same (fun head c same => ?_) fun _ _ kept => kept
  refine aside_bind (queueBytes_moves world writing_le_aside _) same (fun _ c same => ?_) fun _ _
    kept => kept
  subst same
  simp [modify, GatewayConnection.held]

/-- A response is queued, or its stream now owns the admission. -/
theorem publishResponse_held (same : connection.held = held) (id : Nat) (method : Text)
    (response : Response) (admitted : Bool) :
    Ends (publishResponse world id method response admitted) connection
      (fun taken after => after.held = if taken then { held with stream := some (id, admitted) } else held)
      (fun _ after => after.held = held) := by
  unfold publishResponse
  refine .ite (fun _ => ?_) fun _ => ?_
  · rw [ends_bind]
    exact (beginStreamingResponse_held same id response admitted).mono (fun _ _ taken => taken)
      fun _ _ kept => kept
  · refine aside_bind (responsePayload_moves method response) same (fun payload c same => ?_) fun _ _
      kept => kept
    refine aside_bind (queueBytes_moves world writing_le_aside payload) same (fun _ c same => ?_)
      fun _ _ kept => kept
    exact aside_bind (hook_moves world) same (fun _ c same => same) fun _ _ kept => kept

theorem publishResponse_handed (same : connection.held = held) (id : Nat) (method : Text)
    (response : Response)
    (admitted : Bool) : Ends (publishResponse world id method response admitted) connection
      (fun taken after => Held.Handed id admitted held taken after.held)
      (fun _ after => after.held = held) := by
  refine (publishResponse_held same id method response admitted).mono (fun taken after now => ?_)
    fun _ _ kept => kept
  rw [now]
  cases taken with
  | true => exact .stream
  | false => exact .kept

theorem dispatchRequest_handed (same : connection.held = held) (id : Nat) (admitted : Bool) :
    Ends (dispatchRequest world id admitted) connection
      (fun taken after => Held.Handed id admitted held taken after.held)
      (fun _ after => after.held = held) := by
  have late (c : GatewayConnection) (same : c.held = held) (method : Text) : Ends (do
      let response ← requestTimeout world id
      publishResponse world id method response admitted) c
        (fun taken after => Held.Handed id admitted held taken after.held)
        (fun _ after => after.held = held) :=
    aside_bind (requestTimeout_moves world replying_le_aside id) same
      (fun response c same => publishResponse_handed same id method response admitted) fun _ _ kept => kept
  unfold dispatchRequest
  refine aside_bind (requestObject_moves id) same (fun object c same =>
    .ite (fun refused => ?_) fun owned => ?_) fun _ _ kept => kept
  · refine aside_bind (lift_moves _) same (fun response c same => ?_) fun _ _ kept => kept
    exact aside_bind (closing_moves (by simp [aside])) same
      (fun _ c same => publishResponse_handed same id _ response admitted) fun _ _ kept => kept
  · refine aside_bind (nowMs_moves world) same
      (fun now c same => .ite (fun _ => late c same _) fun _ => ?_) fun _ _ kept => kept
    refine aside_bind (ask_moves world _) same (fun result c same => ?_) fun _ _ kept => kept
    cases result with
    | proxy plan =>
      subst same
      exact .proxy (by simpa using owned)
    | response response =>
      refine aside_bind (nowMs_moves world) same
        (fun now c same => .ite (fun _ => late c same _) fun _ => ?_) fun _ _ kept => kept
      exact publishResponse_handed same id _ response admitted
    | other =>
      refine aside_bind (nowMs_moves world) same
        (fun now c same => .ite (fun _ => late c same _) fun _ => ?_) fun _ _ kept => kept
      exact same

theorem requestObject_ends {id : Nat} (valid : id < connection.held.requests) :
    Ends (requestObject id) connection
      (fun object after => after = connection ∧ connection.requests[id]? = some object)
      (fun _ _ => False) := by
  unfold Ends
  rw [requestObject_found (List.getElem?_eq_getElem valid)]
  exact ⟨rfl, List.getElem?_eq_getElem valid⟩

theorem recoverOverflow_held (same : connection.held = held) (method : Text) (outcome : Except Exn Bool) :
    Yields (recoverOverflow world method outcome) connection (fun after => after.held = held) := by
  have back : Yields (recoverOverflow world method outcome) connection (fun _ => True) := by
    unfold recoverOverflow
    split
    · trivial
    · refine Prompt.settle (fun step member => ?_) connection
      rw [List.mem_singleton.mp member]
      exact .bind (.modify _) fun _ => .bind .get fun _ => .when (queueText_prompt world _ _ _)
    · trivial
  refine (Ends.and back (aside_ends (recoverOverflow_moves world replying_le_aside method outcome)
    same)).mono
    (fun _ _ both => both.2) fun _ _ both => both.1

/-- The cleanup of `_finish_request` and what follows it, once the request was handed over or not. -/
theorem settleRequest_sound {id : Nat} {admitted taken : Bool} {error : Option Exn}
    (vacant : held.Sound (if admitted then 1 else 0)) (free : held.Free) (idle : held.current = none)
    (valid : id < held.requests) (handed : Held.Handed id admitted held taken connection.held) :
    Ends (do
      let after ← get
      let handedOver := after.pendingProxy.isSome || after.pendingStream.isSome
      when (handedOver = false) do
        when admitted (release .request)
        changeBody id BodyStream.close
      raiseFirst error
      when (handedOver = false) do
        modify fun connection => { connection with requestsCompleted := connection.requestsCompleted + 1 }
        retire world : Call Unit) connection (fun _ after => after.held.Sound 0) (fun _ after =>
          after.held.Sound 0) := by
  have finishing (c : GatewayConnection) (handedOver : Bool) (sound : c.held.Sound 0) : Ends (do
      raiseFirst error
      when (handedOver = false) do
        modify fun connection => { connection with requestsCompleted := connection.requestsCompleted + 1 }
        retire world : Call Unit) c (fun _ after => after.held.Sound 0) (fun _ after =>
          after.held.Sound 0) := by
    have flows : Evolves (Moves aside) (do
        raiseFirst error
        when (handedOver = false) do
          modify fun connection => { connection with requestsCompleted := connection.requestsCompleted + 1 }
          retire world : Call Unit) :=
      .bind (.raiseFirst error) fun _ => .when (.bind (completed_moves (by simp [aside])) fun _ =>
        retire_moves world (by simp [aside]))
    exact (aside_ends flows rfl).mono (fun _ _ same => same ▸ sound) fun _ _ same => same ▸ sound
  have proxy : connection.pendingProxy.isSome = connection.held.proxy.isSome := by
    simp [GatewayConnection.held]
  have stream : connection.pendingStream.isSome = connection.held.stream.isSome := by
    simp [GatewayConnection.held]
  show Ends (when ((connection.pendingProxy.isSome || connection.pendingStream.isSome) = false) _ >>=
    fun _ => _) connection _ _
  generalize holds : (connection.pendingProxy.isSome || connection.pendingStream.isSome) = isOver
  rw [proxy, stream] at holds
  generalize now : connection.held = reached at handed holds
  cases taken with
  | true =>
    have given : isOver = true := by
      rw [← holds]
      cases handed <;> simp
    subst given
    exact finishing connection true (now ▸ vacant.handed rfl free idle valid handed)
  | false =>
    cases handed
    have given : isOver = false := by
      rw [← holds]
      simp [free.1, free.2.2]
    subst given
    refine Yields.bind (P := fun c => c.held.Sound 0) ?_ fun _ c sound => finishing c false sound
    refine ends_when (fun _ => ?_) fun never => absurd rfl never
    refine Yields.bind (P := fun c => c.held.Sound 0) ?_ fun _ c sound => ?_
    · refine ends_when (fun owned => (release_held connection).mono fun c gone => ?_) fun refused => ?_
      · rw [gone, now]
        exact vacant.release (by simp [owned])
      · rw [now]
        simpa [refused] using vacant
    · exact (changeBody_held id _ c).ends fun _ c' same => same ▸ sound

/-- Whoever reads a request to its end keeps the balance. -/
theorem finishRequest_sound (sound : connection.held.Sound 0) : Ends (finishRequest world) connection
    (fun _ after => after.held.Sound 0) (fun _ after => after.held.Sound 0) := by
  unfold finishRequest
  simp only [get, ends_bind, ends_get, modify, ends_modify]
  have cleared := sound.clear
  cases current : connection.currentRequest with
  | none =>
    have refused : connection.held.currentAdmitted = false := sound.idle current
    rw [refused] at cleared
    exact cleared
  | some id =>
    have valid : id < connection.held.requests := sound.current id current
    refine Yields.bind (P := fun c => c.held = connection.held.clear) (changeBody_held id _ _) fun _
      c same => ?_
    refine .ite (fun pending => ?_) fun alone => ?_
    · have refused : connection.held.currentAdmitted = false :=
        pending.elim (fun proxy => (sound.proxy id proxy).2.2.2.1) fun child =>
          (sound.child id child).2.2.2.1
      rw [refused] at cleared
      show c.held.Sound 0
      exact same ▸ cleared
    · obtain ⟨notProxy, notChild⟩ := not_or.mp alone
      have free : connection.held.clear.Free := sound.free current notProxy notChild
      rw [Int.zero_add] at cleared
      rw [ends_bind]
      refine (requestObject_ends (same ▸ valid)).mono (fun object c' found => ?_) fun _ _ => False.elim
      obtain ⟨rfl, -⟩ := found
      rw [ends_bind]
      refine Prompt.attempt (dispatchRequest_prompt world id _) ?_
      refine (dispatchRequest_handed same id _).mono (fun taken c handed => ?_) fun halt c kept error
        raised => ?_
      · refine Yields.bind (recoverOverflow_held rfl _ _) fun error after now => ?_
        exact settleRequest_sound cleared free rfl valid (now.symm ▸ handed)
      · refine Yields.bind (recoverOverflow_held kept _ _) fun error after now => ?_
        have handed : Held.Handed id connection.currentAdmitted connection.held.clear false after.held := by
          rw [now]
          exact .kept
        exact settleRequest_sound cleared free rfl valid handed

/-- A request that reaches its end behind a pending response only leaves the parser. -/
theorem finishRequest_behind (sound : connection.held.Sound 0)
    (behind : connection.held.proxy.isSome ∨ connection.held.child.isSome) :
    Ends (finishRequest world) connection (fun _ after => after.held = connection.held.clear)
      (fun _ after => after.held = connection.held.clear) := by
  unfold finishRequest
  simp only [get, ends_bind, ends_get, modify, ends_modify]
  cases current : connection.currentRequest with
  | none => rfl
  | some id =>
    have waiting : connection.held.proxy = some id ∨ connection.held.child = some id := by
      have now : connection.held.current = some id := current
      rcases behind with proxy | child
      · obtain ⟨other, owned⟩ := Option.isSome_iff_exists.mp proxy
        have := sound.proxy other owned
        grind
      · obtain ⟨other, owned⟩ := Option.isSome_iff_exists.mp child
        have := sound.child other owned
        grind
    refine Yields.bind (P := fun c => c.held = connection.held.clear) (changeBody_held id _ _) fun _
      c same => ?_
    exact .ite (fun _ => same) fun alone => absurd waiting alone

/-- Where the route of an admitted request takes it. -/
theorem routeRequest_sound {id : Nat} (same : connection.held = held) (sound : held.Sound 0)
    (free : held.Free) (current : held.current = some id) (admitted : held.currentAdmitted = true)
    (streaming expectContinue : Bool) :
    Ends (routeRequest world id streaming expectContinue) connection (fun _ after => after.held.Sound 0)
      (fun _ after => after.held.Sound 0) := by
  obtain ⟨active, -, -, -, valid, idle⟩ := sound
  obtain ⟨noProxy, noChild, noStream⟩ := free
  have waits : { held with proxy := some id, currentAdmitted := false }.Sound 0 := by
    refine ⟨?_, ?_, ?_, ?_, ?_, ?_⟩ <;> grind [Held.owners]
  have spawns : { held with child := some id, currentAdmitted := false }.Sound 0 := by
    refine ⟨?_, ?_, ?_, ?_, ?_, ?_⟩ <;> grind [Held.owners]
  have stays (c : GatewayConnection) (same : c.held = held) : c.held.Sound 0 := by
    rw [same]
    refine ⟨?_, ?_, ?_, ?_, ?_, ?_⟩ <;> grind [Held.owners]
  unfold routeRequest
  refine aside_bind (hook_moves world) same (fun _ c same => ?_) fun _ c => stays c
  refine aside_bind (.when (queueBytes_moves world writing_le_aside _)) same (fun _ c same => ?_)
    fun _ c => stays c
  refine aside_bind (ask_moves world _) same (fun plan c same => ?_) fun _ c => stays c
  cases plan with
  | some plan =>
    subst same
    exact waits
  | none =>
    refine .ite (fun _ => ?_) fun _ => stays c same
    refine aside_bind (ask_moves world _) same (fun _ c same => ?_) fun _ c => stays c
    subst same
    exact spawns

theorem beginRequest_sound (sound : connection.held.Sound 0) (free : connection.held.Free)
    (head : RequestHead) :
    Ends (beginRequest world head) connection (fun _ after => after.held.Sound 0)
      (fun _ after => after.held.Sound 0) := by
  unfold beginRequest
  rw [get_bind]
  refine .ite (fun _ => sound) fun idle => ?_
  have parser : connection.held.current = none := Option.not_isSome_iff_eq_none.mp idle
  have stays (halt : Halt Exn) (c : GatewayConnection) (same : c.held = connection.held) :
      c.held.Sound 0 := same ▸ sound
  refine aside_bind (nowMs_moves world) rfl (fun now c same => ?_) stays
  refine aside_bind (lift_moves _) same (fun body c same => ?_) stays
  refine aside_bind (lift_moves _) same (fun request c same => ?_) stays
  rw [modify_bind]
  obtain ⟨active, -, -, -, -, refused⟩ := sound
  obtain ⟨noProxy, noChild, noStream⟩ := free
  let begun : Held := { connection.held with current := some connection.held.requests, requests :=
    connection.held.requests + 1 }
  have started : begun.Sound 0 := by
    refine ⟨?_, ?_, ?_, ?_, ?_, ?_⟩ <;> grind [Held.owners]
  have owning : { begun with currentAdmitted := true, active := begun.active + 1 }.Sound 0 := by
    refine ⟨?_, ?_, ?_, ?_, ?_, ?_⟩ <;> grind [Held.owners]
  have now : GatewayConnection.held { c with
      requests := c.requests ++ [⟨request, body, { deadlineMs := now + c.config.http1.bodyTimeoutMs }⟩]
      headerDeadlineMs := -1
      currentRequest := some connection.requests.length
      currentKeepAlive := head.keepAlive } = begun := by
    have fields : begun = { c.held with current := some connection.held.requests, requests :=
        c.held.requests + 1 } := by
      rw [same]
    rw [fields]
    simp [GatewayConnection.held]
  rw [ends_bind]
  refine aside_bind (ask_moves world _) now (fun admitted c same => ?_) fun _ c same => same ▸ started
  rw [ends_bind]
  cases admitted with
  | false =>
    refine ends_when (fun never => nomatch never) fun _ => ?_
    rw [ends_pure, modify_bind]
    refine ends_when (fun never => nomatch never) fun _ => ?_
    have settled : { c.held with currentAdmitted := false }.Sound 0 := by
      rw [same]
      refine ⟨?_, ?_, ?_, ?_, ?_, ?_⟩ <;> grind [Held.owners]
    exact settled
  | true =>
    refine ends_when (fun _ => ?_) fun never => absurd rfl never
    show Ends (modify _ >>= _) _ _ _
    rw [modify_bind]
    refine ends_when (fun _ => ?_) fun never => absurd rfl never
    refine routeRequest_sound ?_ owning ⟨noProxy, noChild, noStream⟩ rfl rfl _ _
    rw [← same]
    simp only [GatewayConnection.held, requestsActive_append]
    rfl

end Handing

end GatewayConnection
end PccGateway
