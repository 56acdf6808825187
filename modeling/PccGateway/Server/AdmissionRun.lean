import PccGateway.Server.Accounting
import PccGateway.Server.AdmissionLedger

namespace PccGateway
namespace GatewayConnection
open Thread Method

section Held
variable {held : Held} (sound : held.Sound 0)
include sound

/-- Two places never own an admission at once. -/
theorem Held.Sound.owners_le_one : held.owners ≤ 1 := by
  obtain ⟨active, proxy, child, stream, valid, idle⟩ := sound
  unfold Held.owners
  cases proxied : held.proxy with
  | some id => simp [proxy id proxied]
  | none =>
    cases waits : held.child with
    | some id => simp [child id waits]
    | none =>
      cases streamed : held.stream with
      | some pending =>
        have refused := idle (stream pending streamed).2.2.2
        cases admitted : pending.2 <;> simp [refused, admitted]
      | none =>
        simp only [Option.elim]
        split <;> decide

/-- Without a child, `close` finds every owner. -/
theorem Held.Sound.closed_active (joined : held.child = none) :
    held.abort.dropProxy.dropStream.active = 0 := by
  have settled := sound.abort.dropProxy.dropStream
  have nobody : held.abort.dropProxy.dropStream.owners = 0 := by
    obtain ⟨active, proxy, child, stream, valid, idle⟩ := sound
    unfold Held.abort
    grind [Held.owners, Held.dropProxy, Held.dropStream]
  rw [settled.active, nobody]
  rfl

end Held

variable (world : World)

/-- Whatever becomes of the child's join, the connection has no child behind it. -/
theorem cancelAndJoinPendingLocal_joined (reason : String) (connection : GatewayConnection) :
    Ends (cancelAndJoinPendingLocal world reason) connection (fun _ after => after.held.child = none)
      (fun _ after => after.held.child = none) := by
  unfold cancelAndJoinPendingLocal
  rw [get_bind]
  cases child : connection.pendingLocal with
  | none => exact child
  | some id =>
    have signal : Yields (settle [signalPendingLocal world reason]) connection (fun _ => True) :=
      Prompt.settle (fun step member =>
        List.mem_singleton.mp member ▸ signalPendingLocal_prompt world reason) connection
    refine signal.bind fun signalled c _ => ?_
    have join : Yields (joinCancelled world signalled) c (fun _ => True) := by
      unfold joinCancelled
      have caught : Yields (attempt (ask world World.join)) c (fun _ => True) :=
        Prompt.attempt (ask_prompt world _)
          (Ends.mono (ask_prompt world _ c) (fun _ _ _ => trivial) fun _ _ _ _ _ => trivial)
      refine caught.bind fun outcome c' _ => ?_
      split
      · trivial
      · trivial
    refine join.bind fun error c' _ => ?_
    rw [modify_bind, get_bind]
    have rest : Evolves (Keeps fun after : GatewayConnection => after.held.child = none) (do
        when (c'.currentRequest = some id) <|
          modify fun connection => { connection with currentRequest := none, currentAdmitted := false }
        release .request
        changeBody id BodyStream.close
        raiseFirst error : Call Unit) := by
      refine .bind (.when (.modify fun _ gone => gone)) fun _ =>
        .bind (.modify fun _ gone => gone) fun _ => ?_
      exact .bind (.modify fun _ gone => gone) fun _ => .raiseFirst error
    exact evolves_keeps_iff.mp rest _ rfl

/-- Nothing but `close` closes a connection. -/
def opened (effect : Effect) : Prop := effect ≠ .closed

theorem serving_le_opened : serving ≤ opened := by
  rintro effect allowed rfl
  exact allowed

theorem attempting_le_opened : attempting ≤ opened := by
  rintro effect allowed rfl
  exact allowed

/-- Accounted for, and not closed. -/
def Live (connection : GatewayConnection) : Prop := connection.Balanced ∧ connection.closed = false

theorem serveConnection_live (fuel : Nat) : Evolves (Keeps Live) (serveConnection world fuel) := by
  intro connection live
  have reaches : Reaches world connection (serveConnection world fuel connection).1 :=
    serveConnection_carried (serves_reaches world fuel) relaying_le_attempting connection
  have moves : Moves opened connection (serveConnection world fuel connection).1 :=
    serveConnection_carried (serves_moves world fuel serving_le_opened attempting_le_opened)
      (relaying_le_attempting.trans attempting_le_opened) connection
  refine ⟨reaches.keeps (fun _ _ => step_balanced world) live.1, ?_⟩
  rw [moves.closed.resolve_left (by simp [opened])]
  exact live.2

/-- Live, with every handler child joined. -/
structure Settled (connection : GatewayConnection) : Prop where
  balanced : connection.Balanced
  live : connection.closed = false
  joined : connection.held.child = none

theorem settled_of_moves {before after : GatewayConnection} (moves : Moves attempting before after) :
    Keeps Settled before after := by
  intro settled
  refine ⟨balanced_of_moves (moves.mono attempting_le_aside) settled.balanced, ?_, ?_⟩
  · rw [moves.closed.resolve_left (by simp [attempting])]
    exact settled.live
  · rw [held_of_moves (moves.mono attempting_le_aside)]
    exact settled.joined

theorem cancelAndJoinPendingLocal_settled {connection : GatewayConnection} (live : connection.Live)
    (reason : String) :
    Ends (cancelAndJoinPendingLocal world reason) connection (fun _ => Settled) (fun _ => Settled) := by
  have balanced := evolves_keeps_iff.mp (cancelAndJoinPendingLocal_balanced world reason) connection live.1
  have moves : Evolves (Moves opened) (cancelAndJoinPendingLocal world reason) :=
    cancelAndJoinPendingLocal_moves world serving_le_opened reason
  have joined := cancelAndJoinPendingLocal_joined world reason connection
  have settled {after : GatewayConnection} (facts : (after.Balanced ∧ Moves opened connection after) ∧
      after.held.child = none) : Settled after := by
    refine ⟨facts.1.1, ?_, facts.2⟩
    rw [facts.1.2.closed.resolve_left (by simp [opened])]
    exact live.2
  exact ((balanced.and moves.ends).and joined).mono (fun _ _ => settled) fun _ _ => settled

theorem close_settled {connection : GatewayConnection} (settled : connection.Settled) (reason : String) :
    Ends (close world reason) connection (fun _ after => requestsActive after.trace = 0)
      (fun _ after => requestsActive after.trace = 0) := by
  have zero {after : GatewayConnection} (now : after.held = connection.held.abort.dropProxy.dropStream) :
      requestsActive after.trace = 0 := by
    have none := settled.balanced.closed_active settled.joined
    rw [← now] at none
    exact none
  exact (close_held world settled.live reason).mono (fun _ _ => zero) fun _ _ => zero

/-- What `run_gateway_connection` does after its `try` body. -/
def concludeConnection (world : World) (fuel : Nat) (outcome : Except Exn String) : Call Unit := do
  let connection ← get
  let childError ← settle [when connection.pendingLocal.isSome
    (cancelAndJoinPendingLocal world (outcome.toOption.getD "transport-error"))]
  let connection ← get
  let closeError ← settle [
    when (connection.closed = false) (runTlsCloseNotify world fuel),
    when (connection.closed = false) (close world (outcome.toOption.getD "transport-error"))]
  match outcome with
  | .error primary => raise primary
  | .ok _ => raiseFirst (childError.or closeError)

/-- After a run the connection contributes nothing. -/
theorem runGatewayConnection_active (fuel : Nat) {start : GatewayConnection} (live : start.Live) :
    Concludes (runGatewayConnection world fuel) start (fun after => requestsActive after.trace = 0) := by
  unfold runGatewayConnection
  rw [concludes_bind, ends_attempt]
  have cleanup {c : GatewayConnection} (live : c.Live) (outcome : Except Exn String) :
      Concludes (concludeConnection world fuel outcome) c (fun after =>
        requestsActive after.trace = 0) := by
    unfold concludeConnection
    rw [concludes_bind]
    have settles : Concludes (when (c.pendingLocal.isSome = true)
        (cancelAndJoinPendingLocal world (outcome.toOption.getD "transport-error"))) c Settled := by
      refine ends_when (fun _ => ?_) fun childless => ⟨live.1, live.2, ?_⟩
      · exact (cancelAndJoinPendingLocal_settled world live _).mono (fun _ _ settled => settled)
          fun _ _ settled _ _ => settled
      · exact Option.not_isSome_iff_eq_none.mp childless
    refine concludes_settle_bind (concludes_settle_cons settles fun _ => concludes_settle_nil)
      fun childError c' settled => ?_
    rw [concludes_bind]
    show Concludes (settle _ >>= _) c' _
    have closes {c'' : GatewayConnection} (settled : c''.Settled) :
        Concludes (settle [when (c'.closed = false) (close world
        (outcome.toOption.getD "transport-error"))]) c'' (fun after => requestsActive after.trace = 0) := by
      refine concludes_settle_cons (P := fun after => requestsActive after.trace = 0) ?_ fun _ zero =>
        concludes_settle_nil zero
      refine ends_when (fun _ => ?_) fun closed => absurd ‹c'.Settled›.live closed
      exact (close_settled world settled _).mono (fun _ _ zero => zero) fun _ _ zero _ _ => zero
    have notified : Concludes (when (c'.closed = false) (runTlsCloseNotify world fuel)) c' Settled :=
      (Evolves.when (runTlsCloseNotify_moves world fuel)).concludes.mono fun _ moves =>
        settled_of_moves moves settled
    refine concludes_settle_bind (concludes_settle_cons notified fun _ => closes) fun closeError
      after zero => ?_
    cases outcome with
    | error primary => exact fun _ _ => zero
    | ok reason =>
      exact (Evolves.raiseFirst (R := Keeps fun after : GatewayConnection =>
        requestsActive after.trace = 0) _).concludes.mono
        fun _ kept => kept zero
  refine (evolves_keeps_iff.mp (serveConnection_live world fuel) start live).mono
    (fun reason c live => cleanup live _) ?_
  intro halt c live
  cases halt with
  | raised error => exact cleanup live (.error error)
  | parked => exact fun _ => by simp
  | unfinished => exact fun _ => by simp

theorem Fresh.live {connection : GatewayConnection} (fresh : connection.Fresh) : connection.Live := by
  obtain ⟨config, clientIp, fd, tls, resolver, dnsTransport, proxyPools, rfl⟩ := fresh
  exact ⟨⟨rfl, nofun, nofun, nofun, nofun, fun _ => rfl⟩, rfl⟩

theorem close_isClosed (reason : String) :
    Evolves (fun _ after => after.closed = true) (close world reason) := by
  refine evolves_iff.mpr fun connection => ?_
  unfold close
  rw [get_bind]
  refine .ite (fun closed => closed) fun _ => ?_
  rw [modify_bind]
  have kept {α : Type} {call : Call α} (moves : Evolves (Moves opened) call) :
      Evolves (Keeps fun after : GatewayConnection => after.closed = true) call :=
    moves.mono fun _ _ moves isOver => (moves.closed.resolve_left (by simp [opened])).trans isOver
  have settles : settling ≤ opened := settling_le_serving.trans serving_le_opened
  have cleanups : Evolves (Moves opened) (settle [
      dropEvents true connection.deferredEvents,
      modify fun connection => { connection with output := connection.output.close },
      releaseBuffered world connection.output.queuedBytes,
      when connection.tls (ask world World.close),
      when (0 ≤ connection.fd) (ask world World.close),
      when (0 ≤ connection.fd) (ask world World.close),
      hook world] : Call (Option Exn)) := by
    refine .settle_cons (dropEvents_moves (by simp [opened]) _ _)
      (.settle_cons ?_ (.settle_cons (releaseBuffered_moves world (by simp [opened]) _)
      (.settle_cons (.when (ask_moves world _))
        (.settle_cons (.when (ask_moves world _))
        (.settle_cons (.when (ask_moves world _)) (.settle_cons (hook_moves world) .settle_nil))))))
    exact .modify fun connection => { Moves.still connection with output := .inl (by simp [opened]) }
  refine evolves_keeps_iff.mp
    (kept (.bind (.settle_cons (abortCurrentRequest_moves settles reason) (.settle_cons
    (signalPendingLocal_moves world reason)
    (.settle_cons (cancelPendingProxy_moves settles reason) (.settle_cons
      (cancelPendingStream_moves settles reason) .settle_nil)))) fun first => .bind .get fun after =>
        .bind ?_ fun later => .raiseFirst _)) _ rfl
  split
  · exact .settle_cons (.raise _) cleanups
  · exact cleanups

/-- The request admissions of a connection are those of the places that own a request, which are at
most one, in every state between two calls; when it is over, by itself or closed from outside, every
one has been released. What is assumed is that the connection is fresh. The states are all those
that its calls can reach, in any world: peers, handlers, streams and hooks may do what they like and
raise where they like. A run whose fuel is exhausted is left aside where one is said to conclude. -/
theorem admission_ledger {world : World} {start : GatewayConnection} (fresh : start.Fresh) :
    (∀ connection, Reaches world start connection →
      requestsActive connection.trace = connection.held.owners ∧ connection.held.owners ≤ 1) ∧
    (∀ fuel, Reaches world start (runGatewayConnection world fuel start).1 ∧
      Concludes (runGatewayConnection world fuel) start (fun after =>
        after.trace.count (.released .request) = after.trace.count (.admitted .request))) ∧
    (∀ connection, Reaches world start connection → connection.closed = false → ∀ reason,
      Concludes (do
        let first ← attempt (cancelAndJoinPendingLocal world reason)
        let second ← attempt (close world reason)
        return (first, second)) connection (fun after =>
          after.trace.count (.released .request) = after.trace.count (.admitted .request))) ∧
    (∀ connection reason again, close world again (close world reason connection).1 =
      ((close world reason connection).1, .ok ())) := by
  have balanced {connection : GatewayConnection} (reaches : Reaches world start connection) :
      connection.Balanced :=
    reaches.keeps (fun _ _ => step_balanced world) fresh.live.1
  have even {after : GatewayConnection} (zero : requestsActive after.trace = 0) :
      after.trace.count (.released .request) = after.trace.count (.admitted .request) := by
    unfold requestsActive at zero
    omega
  refine ⟨fun connection reaches => ?_, fun fuel => ⟨?_, ?_⟩, fun connection reaches live reason => ?_, ?_⟩
  · have sound := balanced reaches
    refine ⟨?_, sound.owners_le_one⟩
    have active := sound.active
    rwa [Int.add_zero] at active
  · exact runGatewayConnection_reaches world fuel start
  · exact (runGatewayConnection_active world fuel fresh.live).mono fun _ => even
  · rw [concludes_bind, ends_attempt]
    have closes {c : GatewayConnection} (settled : c.Settled) (first : Except Exn Unit) : Concludes (do
        let second ← attempt (close world reason)
        return (first, second)) c (fun after =>
          after.trace.count (.released .request) = after.trace.count (.admitted .request)) := by
      rw [concludes_bind, ends_attempt]
      refine (close_settled world settled reason).mono (fun _ _ => even) fun halt after zero => ?_
      cases halt with
      | raised error => exact even zero
      | parked => exact fun _ => nofun
      | unfinished => exact fun _ => nofun
    refine (cancelAndJoinPendingLocal_settled world ⟨balanced reaches, live⟩ reason).mono
      (fun _ _ settled => closes settled _) fun halt after settled => ?_
    cases halt with
    | raised error => exact closes settled _
    | parked => exact fun _ => nofun
    | unfinished => exact fun _ => nofun
  · exact fun connection reason again => close_again world _ (close_isClosed world reason connection) again

/-- A client that sends one request and is answered. -/
def oneRequest : World where
  read := fun tick => .ok (if tick < 5 then .progress (ascii "GET / HTTP/1.1\r\nHost: a\r\n\r\n") else .eof)
  write := fun _ data => .ok (.progress data.length)
  dispatch := fun _ => .ok (.response ⟨204, .bytes [], [], false, by decide⟩)

theorem admission_ledger_oneRequest :
    let after := (runGatewayConnection oneRequest 6 (init {})).1
    after.trace.count (.admitted .request) = 1 ∧ after.trace.count (.released .request) = 1 := by
  intro after
  have fresh : Fresh (init {}) := ⟨{}, [], 0, false, false, false, [], rfl⟩
  have once : after.trace.count (.admitted .request) = 1 := by decide +kernel
  have isOver : (runGatewayConnection oneRequest 6 (init {})).2.isOk = true := by decide +kernel
  exact ⟨once, (((admission_ledger fresh).2.1 6).2.returned isOver).trans once⟩

end GatewayConnection
end PccGateway
