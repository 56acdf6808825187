import PccGateway.Lifecycle.ShutdownFrame

namespace PccGateway
namespace Shutdown
open Method (get modify Evolves Ends Keeps Fixes)
open Thread (attempt when settle)

/-- What the server knows about the owners, with a scheduler that reports outcomes. -/
structure Watched (server : GatewayServer) : Prop where
  absent : server.acceptThread = none → server.alive = false
  seen : ∀ connection ∈ server.owned, connection ∈ server.connectionOwners ∨ connection ∈ server.observed
  known : ∀ answer ∈ server.answers, ∀ value, answer.outcome ≠ .unknown value

/-- What an event does with the ledgers. -/
theorem land_ledgers (server : GatewayServer) (event : Event) :
    (server.alive = true ∧ ∃ connection, event = .accepts connection ∧
      (land server event).connectionOwners = server.connectionOwners ∧
      (land server event).owned = server.owned) ∨
    (server.alive = true ∧ ∃ connection thread, event = .owns connection thread ∧
      (land server event).connectionOwners = server.connectionOwners ++ [connection] ∧
      (land server event).owned = connection :: server.owned) ∨
    ((land server event).connections ⊆ server.connections ∧ (land server event).connectionOwners =
      server.connectionOwners ∧ (land server event).owned = server.owned) := by
  cases event with
  | accepts connection =>
    by_cases alive : server.alive = true
    · exact .inl ⟨alive, connection, rfl, by simp only [land, if_pos alive],
        by simp only [land, if_pos alive]⟩
    · simp only [land, if_neg alive]
      exact .inr (.inr ⟨List.Subset.refl _, trivial, trivial⟩)
  | owns connection thread =>
    by_cases alive : server.alive = true
    · exact .inr (.inl ⟨alive, connection, thread, rfl, by simp only [land, if_pos alive],
        by simp only [land, if_pos alive]⟩)
    · simp only [land, if_neg alive]
      exact .inr (.inr ⟨List.Subset.refl _, trivial, trivial⟩)
  | leaves connection => exact .inr (.inr ⟨List.erase_subset, rfl, rfl⟩)
  | closes connection | counts metrics => exact .inr (.inr ⟨List.Subset.refl _, rfl, rfl⟩)
  | refers references =>
    simp only [land]
    split <;> exact .inr (.inr ⟨List.Subset.refl _, rfl, rfl⟩)

theorem land_seen (event : Event) (server : GatewayServer)
    (seen : ∀ connection ∈ server.owned, connection ∈ server.connectionOwners ∨
      connection ∈ server.observed) :
    ∀ connection ∈ (land server event).owned,
      connection ∈ (land server event).connectionOwners ∨ connection ∈ (land server event).observed := by
  intro connection member
  rw [(land_sight server event).2.2.1]
  rcases land_ledgers server event with ⟨-, other, -, owners, owned⟩ |
    ⟨-, other, -, -, owners, owned⟩ | ⟨-, owners, owned⟩
  · rw [owned] at member
    rw [owners]
    exact seen connection member
  · rw [owned] at member
    rw [owners]
    rcases List.mem_cons.mp member with rfl | old
    · exact .inl (List.mem_append_right _ List.mem_cons_self)
    · exact (seen connection old).imp_left (List.mem_append_left _)
  · rw [owned] at member
    rw [owners]
    exact seen connection member

theorem land_watched (event : Event) (server : GatewayServer) (watched : Watched server) :
    Watched (land server event) := by
  obtain ⟨alive, thread, -, answers⟩ := land_sight server event
  refine ⟨fun absent => ?_, land_seen event server watched.seen, by rw [answers]; exact watched.known⟩
  rw [alive]
  exact watched.absent (thread ▸ absent)

theorem watched_waits : Waits (Keeps Watched) where
  lands := by
    intro server answer rest found watched
    refine landed_invariant (fun event _ => land_watched event)
      ⟨watched.absent, watched.seen, fun other member => ?_⟩
    exact watched.known other (found ▸ List.mem_cons_of_mem _ member)
  lifecycle := fun _ _ watched => ⟨watched.absent, watched.seen, watched.known⟩
  seesAccept := fun _ watched => ⟨fun _ => rfl, watched.seen, watched.known⟩
  seesConnection := fun _ _ watched =>
    ⟨watched.absent, fun other member =>
      (watched.seen other member).imp_right (List.mem_cons_of_mem _), watched.known⟩
  forgets := by
    intro server connection seen watched
    unfold forget
    split
    · refine ⟨watched.absent, fun other member => ?_, watched.known⟩
      by_cases same : other = connection
      · exact .inr (same ▸ seen)
      · exact (watched.seen other member).imp_left fun still => (List.mem_erase_of_ne same).mpr still
    · exact watched

theorem external_known {server : GatewayServer} (watched : Watched server) :
    Ends external server (fun answer after => Watched after ∧ ∀ value, answer.outcome ≠
      .unknown value) (fun _ => Watched) := by
  have lands := watched_waits.lands server
  unfold Ends external
  cases found : server.answers with
  | nil => exact watched
  | cons answer rest =>
    have known := watched.known answer (found ▸ List.mem_cons_self)
    simp only
    cases raises : answer.raises with
    | true =>
      simp only [if_true]
      exact lands answer rest found watched
    | false =>
      simp only [Bool.false_eq_true, if_false]
      exact ⟨lands answer rest found watched, known⟩

/-- The accept owner is pending, or has been seen to be terminal. -/
theorem acceptOutcome_known {server : GatewayServer} (watched : Watched server) :
    Ends acceptOutcome server (fun outcome after =>
      Watched after ∧ (outcome = .pending ∨ outcome.terminal = true ∧ after.alive = false))
      (fun _ => Watched) := by
  unfold acceptOutcome
  rw [Method.ends_bind]
  refine (external_known watched).mono (fun answer after known => ?_) fun _ _ kept => kept
  obtain ⟨kept, known⟩ := known
  simp only [Method.ends_bind, Method.ends_modify, Method.ends_pure]
  cases is : answer.outcome with
  | pending => exact ⟨by simpa only [Outcome.terminal, Bool.not_false, Bool.and_true] using kept, .inl rfl⟩
  | unknown value => exact absurd is (known value)
  | returned | raised | cancelled =>
    simp only [Outcome.terminal, Bool.not_true, Bool.and_false]
    exact ⟨watched_waits.seesAccept after kept, .inr ⟨trivial, trivial⟩⟩

/-- The outcome that the loop ends with. -/
theorem observeAccept_outcome (deadline : Int) (fuel : Nat) {server : GatewayServer}
    (watched : Watched server) :
    Ends (observeAccept deadline fuel) server
      (fun found after => Watched after ∧
        (found.1 = .pending ∨ found.1.terminal = true ∧ after.alive = false)) (fun _ => Watched) := by
  refine @Thread.ends_loop _ _ _ _ _ _ _ _ (fun _ => Watched) (fun _ server watched => ?_)
    (fun _ _ watched => watched) fuel () watched
  simp only [Method.ends_bind, Thread.ends_attempt]
  refine (acceptOutcome_known watched).mono (fun outcome after known => ?_) fun halt after kept => ?_
  · refine .ite (fun _ => known) fun _ => ?_
    simp only [Method.ends_bind, Thread.ends_attempt]
    refine (Method.evolves_keeps_iff.mp watched_waits.nowMs after known.1).mono
      (fun now next kept => ?_) fun halt next kept => ?_
    · refine .ite (fun _ => ⟨kept, .inl rfl⟩) fun _ => ?_
      simp only [Method.ends_bind, Thread.ends_attempt]
      refine (Method.evolves_keeps_iff.mp watched_waits.external next kept).mono (fun _ _ kept =>
        kept) fun halt _ kept => ?_
      cases halt with
      | raised error => exact ⟨kept, .inl rfl⟩
      | parked | unfinished => exact kept
    · cases halt with
      | raised error => exact ⟨kept, .inl rfl⟩
      | parked | unfinished => exact kept
  · cases halt with
    | raised error => exact ⟨kept, .inl rfl⟩
    | parked | unfinished => exact kept

theorem retireAccept_watched {outcome : Outcome} {server : GatewayServer} (watched : Watched server)
    (outcomes : outcome = .pending ∨ outcome.terminal = true ∧ server.alive = false) :
    Ends (retireAccept outcome) server (fun _ => Watched) (fun _ => Watched) := by
  have retired : server.alive = false → Watched { server with acceptThread := none } := fun absent =>
    ⟨fun _ => absent, watched.seen, watched.known⟩
  have result (alive : server.alive = false) {α : Type} (next : Except Exn Answer → Call α)
      (quiet : ∀ found, ∃ a, next found = pure a) :
      Ends (do modify fun server => { server with acceptThread := none }; next (← attempt external)) server
        (fun _ => Watched) (fun _ => Watched) := by
    rw [Method.ends_bind, Method.ends_modify, Method.ends_bind]
    refine (Method.evolves_keeps_iff.mp (Evolves.attempt watched_waits.external) _
      (retired alive)).mono (fun found _ kept => ?_)
      fun _ _ kept => kept
    obtain ⟨a, is⟩ := quiet found
    rw [is]
    exact kept
  cases outcome with
  | pending => exact watched
  | unknown value =>
    rcases outcomes with impossible | impossible
    · cases impossible
    · cases impossible.1
  | cancelled => exact retired (outcomes.resolve_left nofun).2
  | returned =>
    exact result (outcomes.resolve_left nofun).2 _ fun found => by cases found <;> exact ⟨_, rfl⟩
  | raised => exact result (outcomes.resolve_left nofun).2 _ fun found => by cases found <;> exact ⟨_, rfl⟩

/-- `_stop_accept_owner` gives up the handle of the accept owner only when it is terminal. -/
theorem stopAcceptOwner_watched : Evolves (Keeps Watched) stopAcceptOwner := by
  refine .bind .get fun server => ?_
  cases server.acceptThread with
  | none => exact .pure none
  | some _ =>
    refine .bind (.attempt watched_waits.external) fun cancelled =>
      .bind (.attempt watched_waits.nowMs) fun now => ?_
    cases now with
    | error error => exact watched_waits.acceptFailure _
    | ok now =>
      refine .bind (.bind .get fun _ => .pure _) fun fuel =>
        Method.evolves_keeps_iff.mpr fun server watched => ?_
      rw [Method.ends_bind]
      refine (observeAccept_outcome _ fuel watched).mono (fun found after known => ?_) fun _ _ kept => kept
      rw [Method.ends_bind]
      refine (retireAccept_watched known.1 known.2).mono (fun _ last kept => ?_) fun _ _ kept => kept
      exact Method.evolves_keeps_iff.mp (watched_waits.acceptFailure _) last kept

theorem settleOwners_watched :
    Evolves (Keeps Watched) settleOwners := watched_waits.settleOwners stopAcceptOwner_watched

/-- An accept owner that is gone stays away. -/
theorem gone_waits : Waits (Keeps fun server => server.alive = false) where
  lands := fun server answer rest _ gone =>
    (landed_sight { server with answers := rest } answer.landed).1.trans gone
  lifecycle := fun _ _ gone => gone
  seesAccept := fun _ _ => rfl
  seesConnection := fun _ _ gone => gone
  forgets := by
    intro server connection _ gone
    unfold forget
    split <;> exact gone

/-- The accept owner is gone, and with it new connections. -/
def Unowned (server : GatewayServer) : Prop := server.alive = false ∧ server.connectionOwners = []

theorem land_unowned (event : Event) (server : GatewayServer) (unowned : Unowned server) :
    Unowned (land server event) := by
  obtain ⟨gone, none_⟩ := unowned
  refine ⟨(land_sight server event).1.trans gone, ?_⟩
  rcases land_ledgers server event with ⟨alive, -⟩ | ⟨alive, -⟩ | ⟨-, owners, -⟩
  · exact absurd (gone.symm.trans alive) Bool.false_ne_true
  · exact absurd (gone.symm.trans alive) Bool.false_ne_true
  · exact owners.trans none_

theorem unowned_waits : Waits (Keeps Unowned) where
  lands := fun server answer rest _ unowned =>
    @landed_invariant Unowned answer.landed (fun event _ => land_unowned event)
      { server with answers := rest } unowned
  lifecycle := fun _ _ unowned => unowned
  seesAccept := fun _ unowned => ⟨rfl, unowned.2⟩
  seesConnection := fun _ _ unowned => unowned
  forgets := by
    intro server connection _ unowned
    unfold forget
    rw [unowned.2, if_neg List.not_mem_nil]
    exact unowned

/-- What a snapshot shows is there. -/
theorem connectionSnapshot_shows (server : GatewayServer) :
    Ends connectionSnapshot server (fun found after => after.connections = found) (fun _ _ => True) := by
  unfold connectionSnapshot
  rw [Method.ends_bind]
  exact Ends.mono (unowned_waits.locked.ends) (fun _ _ _ => rfl) fun _ _ _ => trivial

theorem reapConnectionOwners_shows (server : GatewayServer) :
    Ends reapConnectionOwners server (fun found after => found.1 = true → after.connectionOwners = [])
      (fun _ _ => True) := by
  have snapshot (first : Option Exn) (server : GatewayServer) :
      Ends (do let left ← connectionOwnerSnapshot; return (left.isEmpty, first)) server
        (fun found after => found.1 = true → after.connectionOwners = []) (fun _ _ => True) := by
    unfold connectionOwnerSnapshot
    simp only [Method.ends_bind, Method.ends_get, Method.ends_pure]
    exact Ends.mono (unowned_waits.locked.ends) (fun _ _ _ => List.isEmpty_iff.mp) fun _ _ _ => trivial
  unfold reapConnectionOwners
  rw [Method.ends_bind]
  refine Ends.mono (unowned_waits.connectionOwnerSnapshot.ends) (fun owners after _ => ?_)
    fun _ _ _ => trivial
  rw [Method.ends_bind]
  refine Ends.mono ((unowned_waits.inspectAll owners).ends) (fun found after _ => ?_) fun _ _ _ => trivial
  rw [Method.ends_bind]
  refine Thread.ends_when (fun _ => ?_) fun _ => snapshot found.2 after
  rw [Method.ends_bind]
  exact Ends.mono (unowned_waits.locked.ends) (fun _ after _ => snapshot found.2 _) fun _ _ _ => trivial

/-- Without an accept owner, connections that are found to be terminal are all of them. -/
theorem awaitConnectionOwners_terminal {server : GatewayServer} (gone : server.alive = false) :
    Ends awaitConnectionOwners server
      (fun found after => after.alive = false ∧
        (found.1 = true → after.connections = [] ∧ after.connectionOwners = []))
      (fun _ _ => True) := by
  unfold awaitConnectionOwners
  rw [Method.ends_bind, Method.ends_get, Method.ends_bind]
  refine (Method.evolves_keeps_iff.mp gone_waits.nowMs server gone).mono (fun now after gone => ?_)
    fun _ _ _ => trivial
  rw [Method.ends_bind]
  show Ends (Thread.loop _ _ _) after _ _
  refine @Thread.ends_loop _ _ _ _ _ _ _ _ (fun _ server => server.alive = false)
    (fun first server gone => ?_) (fun _ _ _ => trivial) _ _ gone
  rw [Method.ends_bind]
  refine ((reapConnectionOwners_shows server).and
    (Method.evolves_keeps_iff.mp gone_waits.reapConnectionOwners server gone)).mono
    (fun reaped after both => ?_) fun _ _ _ => trivial
  obtain ⟨empty, gone⟩ := both
  rw [Method.ends_bind]
  refine ((connectionSnapshot_shows after).and
    ((Method.evolves_keeps_iff.mp gone_waits.connectionSnapshot after gone).and
    unowned_waits.connectionSnapshot.ends)).mono (fun connections last all => ?_) fun _ _ _ => trivial
  obtain ⟨shown, gone, unowned⟩ := all
  refine .ite (fun done => ⟨gone, fun _ => ⟨shown.trans done.1, (unowned ⟨?_, empty done.2⟩).2⟩⟩)
    fun _ => ?_
  · assumption
  · rw [Method.ends_bind]
    refine (Method.evolves_keeps_iff.mp gone_waits.nowMs last gone).mono (fun now next gone => ?_)
      fun _ _ _ => trivial
    refine .ite (fun _ => ⟨gone, nofun⟩) fun _ => ?_
    rw [Method.ends_bind]
    exact (Method.evolves_keeps_iff.mp gone_waits.external next gone).mono (fun _ _ gone => gone)
      fun _ _ _ => trivial

/-- Waiting for the connections leaves the handle of the accept owner. -/
theorem thread_waits : Waits (Fixes GatewayServer.acceptThread) where
  lands := fun server answer rest _ => (landed_sight { server with answers := rest } answer.landed).2.1
  lifecycle := fun _ _ => rfl
  seesAccept := fun _ => rfl
  seesConnection := fun _ _ => rfl
  forgets := by
    intro server connection _
    unfold Fixes forget
    split <;> rfl

theorem waitForConnections_quiescent {server : GatewayServer} (watched : Watched server) :
    Ends waitForConnections server
      (fun found after => Watched after ∧
        (found.1 = true → after.acceptThread = none → Quiescent after)) (fun _ => Watched) := by
  have kept := Method.evolves_keeps_iff.mp watched_waits.waitForConnections server watched
  by_cases absent : server.acceptThread = none
  · have gone := watched.absent absent
    have terminal : Ends waitForConnections server (fun found after =>
        after.alive = false ∧ (found.1 = true → after.connections = [] ∧ after.connectionOwners = []))
          (fun _ _ => True) := by
      have first : Evolves (Keeps fun server : GatewayServer => server.alive = false)
          (do let connections ← connectionSnapshot; when (connections ≠ []) forceCloseConnections) :=
        .bind gone_waits.connectionSnapshot fun _ => .when gone_waits.forceCloseConnections
      have both := Method.evolves_keeps_iff.mp first server gone
      unfold waitForConnections
      rw [Method.ends_bind] at both ⊢
      refine both.mono (fun connections after later => ?_) fun _ _ _ => trivial
      rw [Method.ends_bind]
      exact later.mono (fun _ last gone => awaitConnectionOwners_terminal gone) fun _ _ _ => trivial
    refine (kept.and terminal).mono (fun found after both => ⟨both.1, fun done none_ => ?_⟩) fun _ _
      both => both.1
    obtain ⟨watched, gone, empty⟩ := both
    obtain ⟨connections, owners⟩ := empty done
    refine ⟨none_, gone, fun connection member => ?_, connections, owners⟩
    exact (watched.seen connection member).resolve_left (owners ▸ List.not_mem_nil)
  · have still := thread_waits.waitForConnections.ends (s := server)
    refine (kept.and still).mono (fun found after both => ⟨both.1, fun _ none_ => ?_⟩) fun _ _
      both => both.1
    exact absurd (both.2.symm.trans none_) absent

/-- Terminal connections and no accept owner: no owner at all. -/
theorem settleOwners_quiescent {server : GatewayServer} (watched : Watched server) :
    Ends settleOwners server
      (fun found after => Watched after ∧
        (found.2 = true → after.acceptThread = none → Quiescent after)) (fun _ => Watched) := by
  have unreported (first : Option Exn) {after : GatewayServer} (watched : Watched after) :
      Ends (reportConnections first false) after
        (fun found after => Watched after ∧
          (found.2 = true → after.acceptThread = none → Quiescent after)) (fun _ => Watched) := by
    unfold reportConnections
    rw [Method.ends_bind, Method.ends_get, Method.ends_bind]
    exact (Method.evolves_keeps_iff.mp (Evolves.when (watched_waits.fail _)) after watched).mono
      (fun _ _ watched => ⟨watched, nofun⟩) fun _ _ watched => watched
  unfold settleOwners
  rw [Method.ends_bind, Method.ends_get, Method.ends_bind]
  refine (Method.evolves_keeps_iff.mp (Evolves.attempt (.when (watched_waits.onLifecycle _))) server
    watched).mono
    (fun drained after watched => ?_) fun _ _ watched => watched
  rw [Method.ends_bind]
  refine (Method.evolves_keeps_iff.mp stopAcceptOwner_watched after watched).mono
    (fun accept after watched => ?_)
    fun _ _ watched => watched
  rw [Method.ends_bind, Thread.ends_attempt]
  refine (waitForConnections_quiescent watched).mono (fun found last quiescent => ?_) fun halt last
    watched => ?_
  · obtain ⟨terminal, owners⟩ := found
    cases terminal with
    | true => exact quiescent
    | false => exact unreported _ quiescent.1
  · cases halt with
    | raised error => exact unreported _ watched
    | parked | unfinished => exact watched

theorem quiescent_waits : Waits (Keeps Quiescent) where
  lands := by
    intro server answer rest _ quiescent
    refine landed_invariant (fun event _ server quiescent => ?_) quiescent
    obtain ⟨absent, gone, seen, connections, owners⟩ := quiescent
    obtain ⟨alive, thread, observed, -⟩ := land_sight server event
    rcases land_ledgers server event with ⟨here, -⟩ | ⟨here, -⟩ | ⟨fewer, owners', owned⟩
    · exact absurd (gone.symm.trans here) Bool.false_ne_true
    · exact absurd (gone.symm.trans here) Bool.false_ne_true
    · refine ⟨thread.trans absent, alive.trans gone, ?_, List.subset_nil.mp (connections ▸ fewer),
        owners'.trans owners⟩
      rw [owned, observed]
      exact seen
  lifecycle := fun _ _ quiescent => quiescent
  seesAccept := fun _ quiescent => ⟨quiescent.1, rfl, quiescent.2.2⟩
  seesConnection := fun _ _ quiescent =>
    ⟨quiescent.1, quiescent.2.1, fun other member =>
      List.mem_cons_of_mem _ (quiescent.2.2.1 other member), quiescent.2.2.2⟩
  forgets := by
    intro server connection _ quiescent
    unfold forget
    rw [if_neg (quiescent.2.2.2.2 ▸ List.not_mem_nil)]
    exact quiescent

/-- An event that brings no connection. -/
def Event.calm : Event → Bool
  | .accepts _ | .owns _ _ => false
  | .leaves _ | .closes _ | .counts _ | .refers _ => true

/-- There has been no connection, and none comes. -/
structure Vacant (server : GatewayServer) : Prop where
  connections : server.connections = []
  owners : server.connectionOwners = []
  owned : server.owned = []
  calm : server.alive = false ∨ ∀ answer ∈ server.answers, ∀ event ∈ answer.landed, event.calm = true

theorem land_vacant {event : Event} {server : GatewayServer}
    (calm : server.alive = false ∨ event.calm = true) (vacant : Vacant server) :
    Vacant (land server event) := by
  obtain ⟨alive, -, -, answers⟩ := land_sight server event
  obtain ⟨connections, owners, owned, later⟩ := vacant
  have brings (here : server.alive = true) (noise : event.calm = false) : False := by
    rcases calm with gone | quiet
    · exact Bool.false_ne_true (gone.symm.trans here)
    · exact Bool.false_ne_true (noise.symm.trans quiet)
  rcases land_ledgers server event with ⟨here, _, rfl, -⟩ | ⟨here, _, _, rfl, -⟩ | ⟨fewer, owners', owned'⟩
  · exact (brings here rfl).elim
  · exact (brings here rfl).elim
  · refine ⟨List.subset_nil.mp (connections ▸ fewer), owners'.trans owners, owned'.trans owned, ?_⟩
    rw [alive, answers]
    exact later

theorem vacant_waits : Waits (Keeps Vacant) where
  lands := by
    intro server answer rest found vacant
    have calm : server.alive = false ∨ ∀ event ∈ answer.landed, event.calm = true :=
      vacant.calm.imp_right fun calm => calm answer (found ▸ List.mem_cons_self)
    have start : Vacant { server with answers := rest } := ⟨vacant.connections, vacant.owners, vacant.owned,
      vacant.calm.imp_right fun calm other member => calm other (found ▸ List.mem_cons_of_mem _ member)⟩
    refine (@landed_invariant (fun after => Vacant after ∧ after.alive = server.alive) _
      (fun event member after both => ?_) _ ⟨start, rfl⟩).1
    refine ⟨land_vacant (both.2 ▸ calm.imp_right fun calm => calm event member) both.1,
      (land_sight after event).1.trans both.2⟩
  lifecycle := fun _ _ vacant => ⟨vacant.connections, vacant.owners, vacant.owned, vacant.calm⟩
  seesAccept := fun _ vacant => ⟨vacant.connections, vacant.owners, vacant.owned, .inl rfl⟩
  seesConnection := fun _ _ vacant => ⟨vacant.connections, vacant.owners, vacant.owned, vacant.calm⟩
  forgets := by
    intro server connection _ vacant
    unfold forget
    rw [if_neg (vacant.owners ▸ List.not_mem_nil)]
    exact vacant

theorem stopAcceptOwner_vacant : Evolves (Keeps Vacant) stopAcceptOwner :=
  vacant_waits.stopAcceptOwner fun _ vacant =>
    ⟨vacant.connections, vacant.owners, vacant.owned, vacant.calm⟩

/-- A server without connections whose accept owner is absent has no owner at all. -/
theorem Vacant.quiescent {server : GatewayServer} (vacant : Vacant server) (watched : Watched server)
    (absent : server.acceptThread = none) :
    Quiescent server :=
  ⟨absent, watched.absent absent, by simp [vacant.owned], vacant.connections, vacant.owners⟩

end Shutdown
end PccGateway
