import PccGateway.Lifecycle.AcceptLedger

namespace PccGateway
namespace Accepting
open Generations

namespace Finishing

/-- The generation has not been released. -/
def refers : Finishing → Bool
  | .pending | .generation => true
  | .admission | .collect | .finished => false

/-- The admission has not been given back. -/
def admits : Finishing → Bool
  | .pending | .generation | .admission => true
  | .collect | .finished => false

end Finishing

/-- What the next step of `_connection_finished` makes of it. -/
def Finishing.next : Finishing → Finishing
  | .pending => .pending
  | .generation => .admission
  | .admission => .collect
  | .collect | .finished => .finished

/-- How far a connection is closed, with the channel it still has and the times its descriptor was
closed. -/
inductive Shut : Closing → Option Nat → Nat → Prop
  | open (channel : Option Nat) : Shut .open channel 0
  | cleanup (channel : Option Nat) : Shut .cleanup channel 0
  | channel (channel : Option Nat) : Shut .channel channel 0
  | descriptor : Shut .descriptor none 0
  | closed : Shut .closed none 1

/-- What a call has at each point, whether its connection is in `connections` and whether it may be in
`connection_owners`. -/
inductive Fits : Accept → Bool → Bool → Prop
  | unaccepted {returned : Option Int} (no : returned ≠ some 1) :
      Fits { point := .ended returned } false false
  | accepted {fd : Int} {point : Point} (real : 0 ≤ fd) (at_ : point = .admitConnection ∨ point = .refuse) :
    Fits { point, fd } false false
  | refused {fd : Int} {returned : Option Int} (real : 0 ≤ fd) (no : returned ≠ some 1) :
    Fits { point := .ended returned, fd, closes := 1 } false false
  | admitted {fd : Int} (real : 0 ≤ fd) :
      Fits { point := .acquireGeneration, fd, admission := true } false false
  | acquired {fd : Int} {id : Nat} {point : Point} (real : 0 ≤ fd)
      (at_ : point = .fork ∨ point = .newChannel) :
    Fits { point, fd, generation := some id, admission := true, reference := some id } false false
  | channelled {fd : Int} {id : Nat} {channel : Option Nat} {point : Point} (real : 0 ≤ fd)
      (at_ : point = .newSession ∨ point = .abandonChannel ∨ point = .construct ∨ point = .publish) :
    Fits { point, fd, generation := some id, admission := true, reference := some id, channel } false false
  | unwinding {fd : Int} {generation channel : Option Nat} (real : 0 ≤ fd) :
    Fits { point := .closeChannel, fd, generation, admission := true, reference := generation, channel }
      false false
  | unchannelled {fd : Int} {generation : Option Nat} (real : 0 ≤ fd) :
    Fits { point := .releaseGeneration, fd, generation, admission := true, reference := generation }
      false false
  | released {fd : Int} {generation : Option Nat} {releases : Nat} (real : 0 ≤ fd) :
    Fits { point := .releaseConnection, fd, generation, admission := true, generationReleases := releases }
      false false
  | dismissed {fd : Int} {generation : Option Nat} {releases : Nat} (real : 0 ≤ fd) :
    Fits
      { point := .closeDescriptor, fd, generation, generationReleases := releases, connectionReleases := 1 }
      false false
  | unwound {fd : Int} {generation : Option Nat} {releases : Nat} (real : 0 ≤ fd) :
    Fits {
      point := .ended none, fd, generation, closes := 1, generationReleases := releases
      connectionReleases := 1 } false false
  | published {fd : Int} {id : Nat} {channel : Option Nat} (real : 0 ≤ fd) :
    Fits { point := .spawn, fd, generation := some id, admission := true, reference := some id, channel }
      true false
  | unspawned {fd : Int} {id : Nat} {channel : Option Nat} {started : Bool} (real : 0 ≤ fd) :
    Fits {
      point := .remove, fd, generation := some id, started, admission := true, reference := some id
      channel } true false
  | removed {fd : Int} {id : Nat} {channel : Option Nat} {started : Bool} (real : 0 ≤ fd) :
    Fits {
      point := .closeConnection, fd, generation := some id, started, admission := true
      reference := some id, channel } false false
  | closing {fd : Int} {id : Nat} {channel : Option Nat} {started : Bool} {closing : Closing}
      {closes : Nat} (real : 0 ≤ fd)
      (shut : Shut closing channel closes) (partly : closing ≠ .closed) :
    Fits {
      point := .closeConnection, fd, generation := some id, closing, started
      closer := true, admission := true, reference := some id, channel, closes } false false
  | closed {fd : Int} {id : Nat} {started : Bool} (real : 0 ≤ fd) :
    Fits {
      point := .settleGeneration, fd, generation := some id, closing := .closed
      started, closer := true, admission := true, reference := some id, closes := 1 } false false
  | settled {fd : Int} {id : Nat} {started : Bool} (real : 0 ≤ fd) :
    Fits {
      point := .settleConnection, fd, generation := some id, closing := .closed
      started, closer := true, admission := true, closes := 1, generationReleases := 1 } false false
  | failed {fd : Int} {id : Nat} {started : Bool} (real : 0 ≤ fd) :
    Fits {
      point := .ended none, fd, generation := some id, closing := .closed, started
      closer := true, closes := 1, generationReleases := 1, connectionReleases := 1 } false false
  | serving {fd : Int} {id : Nat} {channel : Option Nat} {point : Point} {closing : Closing} {closes : Nat}
      {finishing : Finishing} {owned : Bool} (real : 0 ≤ fd) (shut : Shut closing channel closes)
      (at_ : point = .own ∧ owned = false ∨ point = .ended (some 1)) :
    Fits {
      point, fd, generation := some id, closing, started := true, finishing
      admission := finishing.admits
      reference := if finishing.refers then some id else none
      channel, closes
      generationReleases := if finishing.refers then 0 else 1
      connectionReleases := if finishing.admits then 0 else 1 } (decide (finishing = .pending)) owned

/-- What one step of a call, of its connection's thread or of `_connection_finished` makes of the server. -/
structure Moves (place : Nat) (new : Accept) (server server' : GatewayServer) : Prop where
  calls : server'.calls = server.calls.set place new
  sums : server'.Sums
  fits : Fits new (decide (place ∈ server'.connections)) (decide (place ∈ server'.connectionOwners))
  connections : server'.connections.filter (fun other => decide (other ≠ place)) =
    server.connections.filter fun other => decide (other ≠ place)
  owners : server'.connectionOwners.filter (fun other => decide (other ≠ place)) =
    server.connectionOwners.filter fun other => decide (other ≠ place)
  nodup : server'.connections.Nodup
  retired : server'.lifetime.store.generations.map (fun generation => generation.retired) =
    server.lifetime.store.generations.map fun generation => generation.retired
  others : server'.tlsGenerations.map (fun generation => generation.others) =
    server.tlsGenerations.map fun generation => generation.others

/-- A server between its steps. -/
structure Balanced (server : GatewayServer) : Prop where
  sums : server.Sums
  fits : ∀ place call, server.calls[place]? = some call →
    Fits call (decide (place ∈ server.connections)) (decide (place ∈ server.connectionOwners))
  ranged : ∀ place, place ∈ server.connections ∨ place ∈ server.connectionOwners → place < server.calls.length
  nodup : server.connections.Nodup

namespace Balanced
variable {server server' : GatewayServer} {place : Nat} {call new : Accept}

theorem moves (balanced : Balanced server) (found : server.calls[place]? = some call)
    (moves : Moves place new server server') :
    Balanced server' := by
  have listed {other : Nat} (apart : other ≠ place) :
      other ∈ server'.connections ↔ other ∈ server.connections := by
    have same := congrArg (other ∈ ·) moves.connections
    simpa [apart] using same
  have owned {other : Nat} (apart : other ≠ place) :
      other ∈ server'.connectionOwners ↔ other ∈ server.connectionOwners := by
    have same := congrArg (other ∈ ·) moves.owners
    simpa [apart] using same
  refine ⟨moves.sums, fun other found' is => ?_, fun other member => ?_, moves.nodup⟩
  · rw [moves.calls, Counting.set_at found] at is
    split at is
    · rename_i same
      cases is
      rw [← same]
      exact moves.fits
    · rename_i apart
      simp only [listed (Ne.symm apart), owned (Ne.symm apart)]
      exact balanced.fits other found' is
  · rw [moves.calls, List.length_set]
    by_cases same : other = place
    · rw [same]
      exact (List.getElem?_eq_some_iff.mp found).1
    · rw [listed same, owned same] at member
      exact balanced.ranged other member

end Balanced

/-- The call at `place`, between its steps. -/
structure At (server : GatewayServer) (place : Nat) (call : Accept) (listed owned : Bool) : Prop where
  balanced : Balanced server
  found : server.calls[place]? = some call
  listed : decide (place ∈ server.connections) = listed
  owned : decide (place ∈ server.connectionOwners) = owned

theorem Balanced.at {server : GatewayServer} {place : Nat} {call : Accept} (balanced : Balanced server)
    (found : server.calls[place]? = some call) :
    ∃ listed owned, At server place call listed owned ∧ Fits call listed owned :=
  ⟨_, _, ⟨balanced, found, rfl, rfl⟩, balanced.fits place call found⟩

namespace At
variable {server server' : GatewayServer} {place : Nat} {call new : Accept} {listed owned : Bool}
  (at_ : At server place call listed owned)
include at_

/-- A step that leaves the ledgers as they are. -/
theorem put (around : server'.surroundings = server.surroundings) (sums : (server'.put place new).Sums)
    (fits : Fits new listed owned) : Moves place new server (server'.put place new) := by
  simp only [GatewayServer.surroundings, Prod.mk.injEq] at around
  obtain ⟨connections, owners, calls, retired, others⟩ := around
  refine ⟨by rw [GatewayServer.put, calls], sums, ?_, ?_, ?_, ?_, retired, others⟩
  · simp only [GatewayServer.put, connections, owners, at_.listed, at_.owned]
    exact fits
  · simp only [GatewayServer.put, connections]
  · simp only [GatewayServer.put, owners]
  · simp only [GatewayServer.put, connections]
    exact at_.balanced.nodup

theorem turns (same : new.shares = call.shares) (fits : Fits new listed owned) :
    Moves place new server (server.put place new) :=
  at_.put rfl (at_.balanced.sums.put at_.found same) fits

theorem stays : Moves place call server server := by
  have fits := at_.balanced.fits place call at_.found
  obtain ⟨inRange, is⟩ := List.getElem?_eq_some_iff.mp at_.found
  refine ⟨?_, at_.balanced.sums, fits, rfl, rfl, at_.balanced.nodup, rfl, rfl⟩
  rw [← is, List.set_getElem_self]

/-- The connection goes into the list. -/
theorem lists (same : new.shares = call.shares) (absent : listed = false) (fits : Fits new true owned) :
    Moves place new server
      ({ server with connections := server.connections ++ [place] }.put place new) := by
  have sums := at_.balanced.sums.put at_.found same
  have absent : place ∉ server.connections := of_decide_eq_false (at_.listed.trans absent)
  refine ⟨rfl, ⟨sums.kept, sums.active, sums.holders, sums.tls, sums.ranged⟩, ?_, ?_, rfl, ?_, rfl, rfl⟩
  · have listed : decide (place ∈ server.connections ++ [place]) = true := decide_eq_true (by simp)
    change Fits new (decide (place ∈ server.connections ++ [place]))
      (decide (place ∈ server.connectionOwners))
    rw [listed, at_.owned]
    exact fits
  · simp [GatewayServer.put]
  · exact List.Nodup.append at_.balanced.nodup (List.nodup_singleton place) (by simpa using absent)

/-- It goes out of it. -/
theorem unlists (same : new.shares = call.shares) (fits : Fits new false owned) :
    Moves place new server
      ({ server with connections := server.connections.erase place }.put place new) := by
  have sums := at_.balanced.sums.put at_.found same
  have nodup := at_.balanced.nodup
  refine ⟨rfl, ⟨sums.kept, sums.active, sums.holders, sums.tls, sums.ranged⟩, ?_, ?_, rfl,
    nodup.erase place, rfl, rfl⟩
  · have unlisted : decide (place ∈ server.connections.erase place) = false :=
      decide_eq_false (by simp [nodup.mem_erase_iff])
    change Fits new (decide (place ∈ server.connections.erase place))
      (decide (place ∈ server.connectionOwners))
    rw [unlisted, at_.owned]
    exact fits
  · simp only [GatewayServer.put, nodup.erase_eq_filter, List.filter_filter]
    refine List.filter_congr fun other _ => ?_
    by_cases same : other = place <;> simp [same]

theorem owns (same : new.shares = call.shares) (fits : Fits new listed true) :
    Moves place new server
      ({ server with connectionOwners := server.connectionOwners ++ [place] }.put place new) := by
  have sums := at_.balanced.sums.put at_.found same
  refine ⟨rfl, ⟨sums.kept, sums.active, sums.holders, sums.tls, sums.ranged⟩, ?_, rfl, ?_,
    at_.balanced.nodup, rfl, rfl⟩
  · have owned : decide (place ∈ server.connectionOwners ++ [place]) = true := decide_eq_true (by simp)
    change Fits new (decide (place ∈ server.connections))
      (decide (place ∈ server.connectionOwners ++ [place]))
    rw [owned, at_.listed]
    exact fits
  · simp [GatewayServer.put]

theorem collects (same : new.shares = call.shares) (fits : Fits new listed owned) :
    Moves place new server
      ({ server with lifetime := server.lifetime.step .collectRetired }.put place new) := by
  have sums := at_.balanced.sums.put at_.found same
  refine ⟨rfl, ⟨sums.kept.step .collectRetired, sums.active, sums.holders, sums.tls, sums.ranged⟩,
    ?_, rfl, rfl, at_.balanced.nodup, rfl, rfl⟩
  change Fits new (decide (place ∈ server.connections)) (decide (place ∈ server.connectionOwners))
  rw [at_.listed, at_.owned]
  exact fits

end At

/-- The call goes on from here, and the books are kept. -/
def At.Proceeds {server : GatewayServer} {place : Nat} {call : Accept} {listed owned : Bool}
    (_ : At server place call listed owned) (answer : Answer) : Prop :=
  ∃ new, Moves place new server (server.proceed place call answer)

namespace At
variable {server : GatewayServer} {place : Nat} {fd : Int} {id : Nat}
  {generation channel : Option Nat} {releases : Nat}
  {started : Bool} (real : 0 ≤ fd) (answer : Answer)
include real

theorem admitConnection (at_ : At server place { point := .admitConnection, fd } false false) :
    at_.Proceeds answer := by
  rcases GatewayServer.admitConnection_spec at_.balanced.sums at_.found rfl with
    ⟨lifecycle, returns, after⟩ | ⟨lifecycle, returns, after⟩
  · simp only [Proceeds, GatewayServer.proceed, returns]
    exact ⟨_, at_.put rfl (after _ rfl) (.admitted real)⟩
  · simp only [Proceeds, GatewayServer.proceed, returns]
    exact ⟨_, at_.put rfl (after _ rfl) (.accepted real (.inr rfl))⟩

theorem refuse (at_ : At server place { point := .refuse, fd } false false) : at_.Proceeds answer := by
  refine ⟨_, at_.turns rfl (.refused real ?_)⟩
  split <;> decide

theorem acquireGeneration
    (at_ : At server place { point := .acquireGeneration, fd, admission := true } false false) :
    at_.Proceeds answer := by
  simp only [Proceeds, GatewayServer.proceed]
  split
  · rename_i store id acquired
    obtain ⟨around, after⟩ := GatewayServer.acquireGeneration_spec at_.balanced.sums at_.found rfl acquired
    exact ⟨_, at_.put around (after _ rfl) (.acquired real (.inl rfl))⟩
  · exact ⟨_, at_.turns rfl (.unwinding real)⟩

theorem fork
    (at_ : At server place
      { point := .fork, fd, generation := some id, admission := true, reference := some id } false false) :
    at_.Proceeds answer := by
  simp only [Proceeds, GatewayServer.proceed]
  split
  · exact ⟨_, at_.turns rfl (.unwinding real)⟩
  · refine ⟨_, at_.turns rfl ?_⟩
    cases server.tlsManager with
    | true => exact .acquired real (.inr rfl)
    | false => exact .channelled real (.inr (.inr (.inl rfl)))

theorem newChannel
    (at_ : At server place
      { point := .newChannel, fd, generation := some id, admission := true, reference := some id }
      false false) : at_.Proceeds answer := by
  simp only [Proceeds, GatewayServer.proceed]
  split
  · rename_i tls generation made
    obtain ⟨around, after⟩ := GatewayServer.newChannel_spec at_.balanced.sums at_.found rfl made
    exact ⟨_, at_.put around (after _ rfl) (.channelled real (.inl rfl))⟩
  · exact ⟨_, at_.turns rfl (.unwinding real)⟩

/-- With its channel, if it has one, the call goes on to the publication. -/
theorem channelled {point : Point}
    (among : point = .newSession ∨ point = .abandonChannel ∨ point = .construct ∨ point = .publish)
    (at_ : At server place
      { point, fd, generation := some id, admission := true, reference := some id, channel } false false) :
    at_.Proceeds answer := by
  rcases among with rfl | rfl | rfl | rfl
  · refine ⟨_, at_.turns rfl ?_⟩
    cases answer.raises || answer.noSession with
    | true => exact .channelled real (.inr (.inl rfl))
    | false => exact .channelled real (.inr (.inr (.inl rfl)))
  · obtain ⟨server', returns, around, after⟩ := GatewayServer.releaseChannel_spec at_.balanced.sums at_.found
    simp only [Proceeds, GatewayServer.proceed, returns]
    exact ⟨_, at_.put around (after _ rfl) (.unwinding real)⟩
  · refine ⟨_, at_.turns rfl ?_⟩
    cases answer.raises with
    | true => exact .unwinding real
    | false => exact .channelled real (.inr (.inr (.inr rfl)))
  · exact ⟨_, at_.lists rfl rfl (.published real)⟩

theorem closeChannel
    (at_ : At server place
      { point := .closeChannel, fd, generation, admission := true, reference := generation, channel }
      false false) : at_.Proceeds answer := by
  obtain ⟨server', returns, around, after⟩ := GatewayServer.releaseChannel_spec at_.balanced.sums at_.found
  simp only [Proceeds, GatewayServer.proceed, returns]
  exact ⟨_, at_.put around (after _ rfl) (.unchannelled real)⟩

theorem releaseGeneration
    (at_ : At server place
      { point := .releaseGeneration, fd, generation, admission := true, reference := generation }
      false false) : at_.Proceeds answer := by
  obtain ⟨server', returns, around, after⟩ :=
    GatewayServer.releaseGeneration_spec at_.balanced.sums at_.found rfl
  simp only [Proceeds, GatewayServer.proceed, returns]
  exact ⟨_, at_.put around (after _ rfl) (.released real)⟩

theorem releaseConnection
    (at_ : At server place
      { point := .releaseConnection, fd, generation, admission := true, generationReleases := releases }
      false false) : at_.Proceeds answer := by
  obtain ⟨server', returns, around, after⟩ :=
    GatewayServer.releaseConnection_spec at_.balanced.sums at_.found rfl
  simp only [Proceeds, GatewayServer.proceed, returns]
  exact ⟨_, at_.put around (after _ rfl) (.dismissed real)⟩

theorem spawn
    (at_ : At server place
      { point := .spawn, fd, generation := some id, admission := true, reference := some id, channel }
      true false) : at_.Proceeds answer := by
  simp only [Proceeds, GatewayServer.proceed]
  split
  · exact ⟨_, at_.turns rfl (.unspawned real)⟩
  · exact ⟨_, at_.turns rfl (@Fits.serving _ _ _ _ _ _ .pending _ real (.open _) (.inl ⟨rfl, rfl⟩))⟩

theorem remove
    (at_ : At server place
      { point := .remove, fd, generation := some id, started, admission := true, reference := some id, channel }
      true false) :
    at_.Proceeds answer :=
  ⟨_, at_.unlists rfl (.removed real)⟩

/-- The connection is open, so that it is this call that closes it. -/
theorem closeOpen
    (at_ : At server place
      { point := .closeConnection, fd, generation := some id, started, admission := true, reference :=
        some id, channel }
      false false) : at_.Proceeds answer :=
  ⟨_, at_.turns rfl (.closing real (.cleanup _) (by rintro ⟨⟩))⟩

theorem closeConnection {closing : Closing} {closes : Nat} (shut : Shut closing channel closes)
    (partly : closing ≠ .closed) (at_ : At server place {
      point := .closeConnection, fd, generation := some id, closing, started, closer := true,
      admission := true
      reference := some id, channel, closes } false false) : at_.Proceeds answer := by
  have mine : ¬ (closing ≠ .open ∧ true = false) := by simp
  simp only [Proceeds, GatewayServer.proceed, if_neg mine]
  cases shut with
  | «open» => exact ⟨_, at_.turns rfl (.closing real (.cleanup _) (by rintro ⟨⟩))⟩
  | cleanup => exact ⟨_, at_.turns rfl (.closing real (.channel _) (by rintro ⟨⟩))⟩
  | channel =>
    obtain ⟨server', returns, around, after⟩ :=
      GatewayServer.releaseChannel_spec at_.balanced.sums at_.found
    simp only [GatewayServer.closeConnection, returns]
    exact ⟨_, at_.put around (after _ rfl) (.closing real .descriptor (by rintro ⟨⟩))⟩
  | descriptor =>
    simp only [GatewayServer.closeConnection, if_pos real]
    exact ⟨_, at_.turns rfl (.closed real)⟩
  | closed => exact absurd rfl partly

theorem settleGeneration
    (at_ : At server place {
      point := .settleGeneration, fd, generation := some id, closing := .closed, started,
      closer := true, admission := true
      reference := some id, closes := 1 } false false) : at_.Proceeds answer := by
  obtain ⟨server', returns, around, after⟩ :=
    GatewayServer.releaseGeneration_spec at_.balanced.sums at_.found rfl
  simp only [Proceeds, GatewayServer.proceed, returns]
  exact ⟨_, at_.put around (after _ rfl) (.settled real)⟩

theorem settleConnection
    (at_ : At server place {
      point := .settleConnection, fd, generation := some id, closing := .closed, started,
      closer := true, admission := true
      closes := 1, generationReleases := 1 } false false) : at_.Proceeds answer := by
  obtain ⟨server', returns, around, after⟩ :=
    GatewayServer.releaseConnection_spec at_.balanced.sums at_.found rfl
  simp only [Proceeds, GatewayServer.proceed, returns]
  exact ⟨_, at_.put around (after _ rfl) (.failed real)⟩

end At

section Steps
variable {server : GatewayServer} {place : Nat} {call : Accept} (balanced : Balanced server)
  (found : server.calls[place]? = some call)
include balanced found

theorem proceed_moves (answer : Answer) : ∃ new, Moves place new server (server.proceed place call answer) := by
  obtain ⟨listed, owned, at_, fits⟩ := balanced.at found
  cases fits with
  | unaccepted | refused | unwound | failed => exact ⟨_, at_.stays⟩
  | accepted real among =>
    rcases among with rfl | rfl
    · exact at_.admitConnection real answer
    · exact at_.refuse real answer
  | admitted real => exact at_.acquireGeneration real answer
  | acquired real among =>
    rcases among with rfl | rfl
    · exact at_.fork real answer
    · exact at_.newChannel real answer
  | channelled real among => exact at_.channelled real answer among
  | unwinding real => exact at_.closeChannel real answer
  | unchannelled real => exact at_.releaseGeneration real answer
  | released real => exact at_.releaseConnection real answer
  | dismissed real => exact ⟨_, at_.turns rfl (.unwound real)⟩
  | published real => exact at_.spawn real answer
  | unspawned real => exact at_.remove real answer
  | removed real => exact at_.closeOpen real answer
  | closing real shut partly => exact at_.closeConnection real answer shut partly
  | closed real => exact at_.settleGeneration real answer
  | settled real => exact at_.settleConnection real answer
  | serving real shut among =>
    rcases among with ⟨rfl, rfl⟩ | rfl
    · exact ⟨_, at_.owns rfl (.serving real shut (.inr rfl))⟩
    · exact ⟨_, at_.stays⟩

theorem close_moves (started : call.started = true) (mine : call.closer = false)
    (late : call.unclosed = false) :
    ∃ new, Moves place new server
      ((server.closeConnection call).1.put place (server.closeConnection call).2) := by
  obtain ⟨listed, owned, at_, fits⟩ := balanced.at found
  cases fits with
  | serving real shut among =>
    cases shut with
    | «open» => exact ⟨_, at_.turns rfl (.serving real (.cleanup _) among)⟩
    | cleanup => exact ⟨_, at_.turns rfl (.serving real (.channel _) among)⟩
    | channel =>
      obtain ⟨server', returns, around, after⟩ := GatewayServer.releaseChannel_spec balanced.sums found
      simp only [GatewayServer.closeConnection, returns]
      exact ⟨_, at_.put around (after _ rfl) (.serving real .descriptor among)⟩
    | descriptor =>
      simp only [GatewayServer.closeConnection, if_pos real]
      exact ⟨_, at_.turns rfl (.serving real .closed among)⟩
    | closed => exact ⟨_, at_.turns rfl (.serving real .closed among)⟩
  | unspawned | removed =>
    cases started
    cases late
  | closing | closed | settled | failed => cases mine
  | _ => cases started

/-- Before its rollback a thread whose `spawn_connection` raised has no part in the ledger, and after
it there is nothing in it. -/
theorem finish_moves (started : call.started = true) (late : call.unremoved = false) :
    ∃ new, Moves place new server (server.connectionFinished place call) ∧
      (place ∈ server.connections → new.finishing = .generation) := by
  obtain ⟨listed, owned, at_, fits⟩ := balanced.at found
  unfold GatewayServer.connectionFinished
  split
  · rename_i member
    have is : listed = true := at_.listed.symm.trans (decide_eq_true member)
    cases fits with
    | @serving _ _ _ _ _ _ finishing _ real shut among =>
      have pending : finishing = .pending := of_decide_eq_true is
      subst pending
      exact ⟨_, at_.unlists rfl (@Fits.serving _ _ _ _ _ _ .generation _ real shut among), fun _ => rfl⟩
    | unspawned =>
      cases started
      cases late
    | published => cases started
    | _ => cases is
  · rename_i absent
    exact ⟨call, at_.stays, fun member => absurd member absent⟩

theorem settle_moves :
    ∃ new, Moves place new server (server.settle place call) ∧ new.finishing = call.finishing.next := by
  obtain ⟨listed, owned, at_, fits⟩ := balanced.at found
  cases fits with
  | @serving _ _ _ _ _ _ finishing _ real shut among =>
    cases finishing with
    | pending => exact ⟨_, at_.stays, rfl⟩
    | generation =>
      obtain ⟨server', returns, around, after⟩ :=
        GatewayServer.releaseGeneration_spec balanced.sums found rfl
      simp only [GatewayServer.settle, returns]
      exact ⟨_, at_.put around (after _ rfl) (@Fits.serving _ _ _ _ _ _ .admission _ real shut among), rfl⟩
    | admission =>
      obtain ⟨server', returns, around, after⟩ :=
        GatewayServer.releaseConnection_spec balanced.sums found rfl
      simp only [GatewayServer.settle, returns]
      exact ⟨_, at_.put around (after _ rfl) (@Fits.serving _ _ _ _ _ _ .collect _ real shut among), rfl⟩
    | collect => exact ⟨_, at_.collects rfl (@Fits.serving _ _ _ _ _ _ .finished _ real shut among), rfl⟩
    | finished => exact ⟨_, at_.stays, rfl⟩
  | _ => exact ⟨_, at_.stays, rfl⟩

end Steps
end Accepting
end PccGateway
