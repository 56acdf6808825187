import PccGateway.Server.ProxyFrame

namespace PccGateway
namespace GatewayConnection
open Thread Method

/-- A relation that the loop of a connection moves along: what it does by itself, and each of the calls
that it makes on the connection. -/
structure Serves (world : World) (fuel : Nat) (E : Effect → Prop)
    (R : GatewayConnection → GatewayConnection → Prop) : Prop
    extends Carries world E R where
  resume : Evolves R (resumeDeferredEvents world)
  child : Evolves R (drivePendingLocal world)
  stream : Evolves R (driveStreamingResponse world)
  eof : Evolves R (inputEof world)
  proxy : Evolves R (runGatewayProxy world fuel)

theorem runTlsCloseNotify_moves (world : World) (fuel : Nat) {E : Effect → Prop} :
    Evolves (Moves E) (runTlsCloseNotify world fuel) := by
  refine .bind .get fun connection => .ite (.pure _) (.bind (nowMs_moves world) fun start => ?_)
  refine .loop (fun _ => .bind (nowMs_moves world) fun now =>
    .bind (ask_moves world _) fun step => ?_) fuel ()
  split
  · exact .ite (.bind (hook_moves world) fun _ => .pure _) (.bind (ask_moves world _) fun _ => .pure _)
  · exact .bind (hook_moves world) fun _ => .pure _

section Serves
variable {world : World} {fuel : Nat} {E : Effect → Prop} {R : GatewayConnection → GatewayConnection → Prop}
  [IsPreorder GatewayConnection R] (serves : Serves world fuel E R) (sub : relaying ≤ E)
include serves

omit [IsPreorder GatewayConnection R] in
theorem timed_carried {change : GatewayConnection → GatewayConnection}
    (still : ∀ connection, Moves E connection (change connection)) : Evolves R (modify change) :=
  serves.of_moves (.modify still)

theorem handshakePass_carried (deadline : Int) : Evolves R (handshakePass world deadline) := by
  have hooked {β : Type} (result : β) : Evolves R (do hook world; return result : Call β) :=
    .bind (serves.of_moves (hook_moves world)) fun _ => .pure _
  refine .bind .get fun connection =>
    .bind (.when (.bind (serves.of_moves (nowMs_moves world)) fun _ => .pure _)) fun _ => ?_
  refine .bind (serves.of_moves (ask_moves world _)) fun step => ?_
  cases step with
  | ok alpn => exact .bind (serves.of_moves (hook_moves world)) fun _ => .ite (.raise _) (.pure _)
  | selectSni => exact .pure _
  | want interest =>
    refine .bind (serves.of_moves (nowMs_moves world)) fun now => .ite ?_ ?_
    · exact .bind (serves.of_moves (ask_moves world _)) fun _ => hooked _
    · exact .bind (serves.of_moves (ask_moves world _)) fun _ => .pure _
  | closed => exact hooked _
  | failed name => exact hooked _

theorem runTlsHandshake_carried : Evolves R (runTlsHandshake world fuel) := by
  refine .bind .get fun connection =>
    .ite (.pure _) (.bind (serves.of_moves (nowMs_moves world)) fun now => ?_)
  exact .bind (serves.of_moves (hook_moves world)) fun _ =>
    .loop (fun _ => handshakePass_carried serves _) fuel ()

theorem servePendingLocal_carried (id : Nat) : Evolves R (servePendingLocal world id) := by
  refine .bind serves.child fun driven =>
    .ite (.pure _) (.bind (serves.of_moves (requestObject_moves id)) fun object => ?_)
  refine .bind (serves.of_moves (nowMs_moves world)) fun now =>
    .ite (.bind (serves.timeout _) fun _ => .pure _) ?_
  refine .bind (serves.of_moves (waitWritable_moves world id)) fun writable => .ite (.pure _) ?_
  refine .bind (serves.of_moves (nowMs_moves world)) fun now => .bind (.when (serves.timeout _)) fun _ => ?_
  exact .bind (.when (serves.of_moves (ask_moves world _))) fun _ => .pure _

theorem decodeBuffered_carried : Evolves R (decodeBuffered world) := by
  refine .bind .get fun before => .ite (.pure _) (.bind (serves.feed _ _) fun handled =>
    .bind .get fun connection => ?_)
  refine .bind (.forSome fun pending => serves.consume _) fun _ => .bind .get fun connection => ?_
  exact .bind (.forSome fun id => serves.consume _) fun _ => .bind .get fun _ => .pure _

include sub

theorem readClient_carried (reason : String) : Evolves R (readClient world reason) := by
  refine .bind (serves.of_moves (readTransport_moves world (sub (.entry .io) trivial))) fun outcome => ?_
  cases outcome with
  | progress data =>
    refine .ite (.raise _) (.bind (serves.of_moves (nowMs_moves world)) fun now => ?_)
    refine .bind (timed_carried serves fun connection => { Moves.still connection with }) fun _ => ?_
    refine .bind (serves.feed data 1) fun _ => .bind .get fun connection => ?_
    exact .bind (.forSome fun id => serves.consume _) fun _ => .pure _
  | eof => exact .bind serves.eof fun _ => .bind .get fun connection => .ite (.pure _) (.pure _)
  | wouldBlock =>
    refine .bind (serves.of_moves (nowMs_moves world)) fun now => .bind .get fun connection => ?_
    refine .ite (.bind (serves.timeout _) fun _ => .pure _) ?_
    exact .bind (serves.of_moves (ask_moves world _)) fun _ => .pure _
  | failed => exact .raise _

theorem servePass_carried (reason : String) : Evolves R (servePass world reason) := by
  refine .bind .get fun connection => .ite (.bind serves.stream fun _ => .pure _) ?_
  refine .ite (.bind serves.resume fun _ => .pure _) (.ite (.pure _) (.ite (.pure _) ?_))
  exact .bind (decodeBuffered_carried serves) fun decoded =>
    .ite (.pure _) (readClient_carried serves sub reason)

theorem connectionPass_carried (reason : String) : Evolves R (connectionPass world fuel reason) := by
  refine .bind .get fun connection => .ite (.pure _) (.ite ?_ (.ite (.bind serves.proxy fun _ =>
    .pure _) ?_))
  · refine .bind (flushTransport_carried serves.toCarries (delivering_le_relaying.trans sub))
      fun outcome => ?_
    cases outcome with
    | timeout => exact .pure _
    | wouldBlock =>
      refine .bind (serves.of_moves (nowMs_moves world)) fun _ => ?_
      exact .bind (serves.of_moves (ask_moves world _)) fun _ => .pure _
    | progress => exact .pure _
  · split
    · exact servePass_carried serves sub reason
    · exact .bind (servePendingLocal_carried serves _) fun reads =>
        .ite (servePass_carried serves sub reason) (.pure _)

theorem serveConnection_carried : Evolves R (serveConnection world fuel) := by
  refine .bind .get fun connection =>
    .ite (.raise _) (.bind (serves.of_moves (hook_moves world)) fun _ => ?_)
  refine .bind (serves.of_moves (nowMs_moves world)) fun now => ?_
  refine .bind (timed_carried serves fun connection => { Moves.still connection with }) fun _ => ?_
  refine .bind (runTlsHandshake_carried serves) fun ready => .ite (.pure _) ?_
  exact .loop (connectionPass_carried serves sub) fuel "closed"

end Serves

section Moves
variable (world : World) (fuel : Nat) {E : Effect → Prop}

theorem carries_moves (sub : serving ≤ E) : Carries world E (Moves E) where
  calm := fun _ _ moves => moves
  feed := feedData_moves world sub
  consume := consumePendingBodyEvents_moves world sub
  timeout := deadlineTimeout_moves world sub

theorem finishProxy_moves (sub : serving ≤ E) (id : Nat) : Evolves (Moves E) (finishProxy world id) := by
  have flow : E .flow := sub .flow trivial
  refine .bind .get fun connection => .ite (.pure _) ?_
  refine .bind (set_moves sub fun connection => { Moves.still connection with
    owners := .inl trivial }) fun _ => ?_
  refine .bind (.when (set_moves sub fun connection => { Moves.still connection with
    owners := .inl trivial })) fun _ => ?_
  refine .bind (requestObject_moves id) fun object =>
    .bind (.when (.bind (closing_moves flow) fun _ => ?_)) fun _ => ?_
  · exact .bind (.when (cancelRequest_moves id _)) fun _ => changeBody_moves id fun _ =>
      BodyStream.grows_cancel
  · refine .bind (changeBody_moves id fun _ => BodyStream.grows_close) fun _ => ?_
    refine .bind (release_moves (settling_le_serving.trans sub)) fun _ => ?_
    exact .bind (completed_moves flow) fun _ => retire_moves world flow

/-- Everything that a proxied request does. -/
theorem runGatewayProxy_moves (sub : serving ≤ E) (attempts : attempting ≤ E) :
    Evolves (Moves E) (runGatewayProxy world fuel) := by
  refine .bind .get fun connection => ?_
  split
  · exact .pure _
  · refine .ensuring (driveProxy_carried (carries_moves world sub) fuel attempts ?_ _ _)
      (finishProxy_moves world sub _)
    exact closing_moves (sub .flow trivial)

/-- What `close` may change: everything but the parts of a proxy attempt. -/
theorem close_moves (sub : serving ≤ E) (closes : E .closed) (reason : String) :
    Evolves (Moves E) (close world reason) := by
  have settles := settling_le_serving.trans sub
  refine .bind .get fun connection => .ite (.pure _) ?_
  refine .bind (.modify fun connection => { Moves.still connection with
    closed := .inl closes
    deferred := .inl (sub .deferred trivial) }) fun _ => ?_
  refine .bind (.settle_cons (abortCurrentRequest_moves settles reason)
    (.settle_cons (signalPendingLocal_moves world reason)
    (.settle_cons (cancelPendingProxy_moves settles reason)
      (.settle_cons (cancelPendingStream_moves settles reason) .settle_nil)))) fun first => ?_
  refine .bind .get fun after => ?_
  have cleanups : Evolves (Moves E) (settle [
      dropEvents true connection.deferredEvents,
      modify fun connection => { connection with output := connection.output.close },
      releaseBuffered world connection.output.queuedBytes,
      when connection.tls (ask world World.close),
      when (0 ≤ connection.fd) (ask world World.close),
      when (0 ≤ connection.fd) (ask world World.close),
      hook world] : Call (Option Exn)) := by
    refine .settle_cons (dropEvents_moves (sub (.entry .event) trivial) _ _)
        (.settle_cons (.modify fun connection =>
      { Moves.still connection with output := .inl (sub .output trivial) }) ?_)
    refine .settle_cons (releaseBuffered_moves world (sub .buffered trivial) _)
      (.settle_cons (.when (ask_moves world _)) ?_)
    exact .settle_cons (.when (ask_moves world _))
      (.settle_cons (.when (ask_moves world _)) (.settle_cons (hook_moves world) .settle_nil))
  refine .bind ?_ fun later => .raiseFirst _
  split
  · exact .settle_cons (.raise _) cleanups
  · exact cleanups

theorem serves_moves (sub : serving ≤ E) (attempts : attempting ≤ E) : Serves world fuel E (Moves E) where
  toCarries := carries_moves world sub
  resume := resumeDeferredEvents_moves world sub
  child := drivePendingLocal_moves world sub
  stream := driveStreamingResponse_moves world sub
  eof := inputEof_moves world sub
  proxy := runGatewayProxy_moves world fuel sub attempts

end Moves

end GatewayConnection
end PccGateway
