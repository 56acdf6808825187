import Mathlib.Logic.Relation
import PccGateway.Server.RunFrame

namespace PccGateway
namespace GatewayConnection
open Thread Method

/-- One call that the thread of a connection makes on it, or what it does in between: the calls by which
events, responses and owners move. -/
inductive Step (world : World) : GatewayConnection → GatewayConnection → Prop
  | calm {before after : GatewayConnection} (moves : Moves attempting before after) :
      Step world before after
  | feedData (connection : GatewayConnection) (data : Bytes) (maxMessages : Int) :
      Step world connection (feedData world data maxMessages connection).1
  | consumePendingBodyEvents (connection : GatewayConnection) (id : Nat) :
      Step world connection (consumePendingBodyEvents world id connection).1
  | resumeDeferredEvents (connection : GatewayConnection) :
      Step world connection (resumeDeferredEvents world connection).1
  | drivePendingLocal (connection : GatewayConnection) :
      Step world connection (drivePendingLocal world connection).1
  | driveStreamingResponse (connection : GatewayConnection) :
      Step world connection (driveStreamingResponse world connection).1
  | inputEof (connection : GatewayConnection) : Step world connection (inputEof world connection).1
  | deadlineTimeout (connection : GatewayConnection) (phase : DeadlinePhase) :
      Step world connection (deadlineTimeout world phase connection).1
  | closing (connection : GatewayConnection) :
      Step world connection { connection with closeAfterFlush := true }
  | finishProxy (connection : GatewayConnection) (id : Nat) :
      Step world connection (finishProxy world id connection).1
  | cancelAndJoinPendingLocal (connection : GatewayConnection) (reason : String) :
      Step world connection (cancelAndJoinPendingLocal world reason connection).1
  | close (connection : GatewayConnection) (reason : String) :
      Step world connection (close world reason connection).1

/-- The states that the thread can bring a connection to. -/
def Reaches (world : World) : GatewayConnection → GatewayConnection → Prop :=
  Relation.ReflTransGen (Step world)

variable (world : World) (fuel : Nat)

instance : IsPreorder GatewayConnection (Reaches world) where
  refl := fun _ => .refl
  trans := fun _ _ _ => .trans

/-- A call that is a step. -/
theorem reaches_of_step {α : Type} {call : Call α}
    (step : ∀ connection, Step world connection (call connection).1) :
    Evolves (Reaches world) call := fun connection => .single (step connection)

theorem carries_reaches : Carries world attempting (Reaches world) where
  calm := fun _ _ moves => .single (.calm moves)
  feed := fun data maxMessages => reaches_of_step world fun connection =>
    .feedData connection data maxMessages
  consume := fun id => reaches_of_step world fun connection => .consumePendingBodyEvents connection id
  timeout := fun phase => reaches_of_step world fun connection => .deadlineTimeout connection phase

theorem runGatewayProxy_reaches : Evolves (Reaches world) (runGatewayProxy world fuel) := by
  refine .bind .get fun connection => ?_
  split
  · exact .pure _
  · refine .ensuring (driveProxy_carried (carries_reaches world) fuel le_rfl ?_ _ _) ?_
    · exact reaches_of_step world .closing
    · exact reaches_of_step world fun connection => .finishProxy connection _

theorem serves_reaches : Serves world fuel attempting (Reaches world) where
  toCarries := carries_reaches world
  resume := reaches_of_step world .resumeDeferredEvents
  child := reaches_of_step world .drivePendingLocal
  stream := reaches_of_step world .driveStreamingResponse
  eof := reaches_of_step world .inputEof
  proxy := runGatewayProxy_reaches world fuel

/-- A run is made of these steps. -/
theorem runGatewayConnection_reaches : Evolves (Reaches world) (runGatewayConnection world fuel) := by
  have serves := serves_reaches world fuel
  refine .bind (.attempt (serveConnection_carried serves relaying_le_attempting)) fun outcome =>
    .bind .get fun connection => ?_
  refine .bind (.settle_cons (.when (reaches_of_step world fun connection =>
    .cancelAndJoinPendingLocal connection _))
    .settle_nil) fun childError => .bind .get fun connection => ?_
  refine .bind (.settle_cons (.when (serves.of_moves (runTlsCloseNotify_moves world fuel))) (.settle_cons
    (.when (reaches_of_step world fun connection => .close connection _)) .settle_nil)) fun closeError => ?_
  cases outcome with
  | error primary => exact .raise _
  | ok reason => exact .raiseFirst _

/-- What every step keeps, a run keeps. -/
theorem Reaches.keeps {inv : GatewayConnection → Prop} {world : World}
    (step : ∀ before after, Step world before after →
    Keeps inv before after) {before after : GatewayConnection} (reaches : Reaches world before after) :
    Keeps inv before after := by
  intro holds
  induction reaches with
  | refl => exact holds
  | tail _ last ih => exact step _ _ last ih

/-- A connection as the server accepts it. -/
def Fresh (connection : GatewayConnection) : Prop :=
  ∃ config clientIp fd tls resolver dnsTransport proxyPools, connection = { init config with
    clientIp := clientIp
    fd := fd
    tls := tls
    resolver := resolver
    dnsTransport := dnsTransport
    proxyPools := proxyPools }

end GatewayConnection
end PccGateway
