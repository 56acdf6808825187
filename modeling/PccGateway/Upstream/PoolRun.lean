import PccGateway.Upstream.PoolLedger

namespace PccGateway
namespace Upstreams
namespace UpstreamConnectionPool

/-- The connection that an action releases: a failed `opened` releases its reservation. -/
def releases (pool : UpstreamConnectionPool) : Action → Option Nat
  | .release id _ _ => some id
  | .opened id handle => if handle < 0 then some id else none
  | .proceed place result =>
    match pool.calls[place]? with
    | some (.opening id) => if result.all fun handle => decide (handle < 0) then some id else none
    | _ => none
  | _ => none

/-- No user releases a connection that it has released already, and that is idle since. -/
def ReleasesOnce (pool : UpstreamConnectionPool) (action : Action) : Prop :=
  ∀ id, pool.releases action = some id → id ∉ pool.idle

instance (pool : UpstreamConnectionPool) (action : Action) : Decidable (pool.ReleasesOnce action) :=
  match is : pool.releases action with
  | none => .isTrue (by simp [ReleasesOnce, is])
  | some id => decidable_of_iff (id ∉ pool.idle) (by simp [ReleasesOnce, is])

section Step
variable {pool : UpstreamConnectionPool}

theorem Ledger.proceed {call : Call} (ledger : pool.Ledger [] call.due) {result : Option Int}
    (away : ∀ id, call = .opening id → (result.all fun handle => decide (handle < 0)) = true →
      id ∉ pool.idle) :
    (pool.proceed call result).Ledger [] [] := by
  cases call with
  | reserving nowMs opens =>
    obtain ⟨pool', reserved, returns, after⟩ := ledger.reserveLocked nowMs
    simp only [UpstreamConnectionPool.proceed, returns]
    cases reserved with
    | connection id =>
      simp only
      split
      · exact Ledger.goes after
      · exact after
    | full => exact after
    | expired id handle => exact Ledger.goes after
  | expired nowMs opens id handle =>
    have closed : (pool.closeHandle (.connection id) handle).Ledger [] [] :=
      Ledger.closeHandle (by simpa [Call.due] using ledger)
    simp only [UpstreamConnectionPool.proceed]
    split
    · exact closed
    · exact Ledger.goes closed
  | opening id =>
    cases result with
    | none => exact ledger.close (away id rfl rfl) true
    | some handle => exact ledger.opened fun failed => away id rfl (by simpa using failed)
  | closing owner handle =>
    refine Ledger.closeHandle ?_
    simpa [Call.due] using ledger
  | sweeping handles =>
    cases handles with
    | nil => exact ledger
    | cons entry rest =>
      refine Ledger.goes (Ledger.closeHandle ?_)
      simpa [Call.due] using ledger

theorem Ledger.other (ledger : pool.Ledger [] []) {action : Upstreams.Action}
    (differs : action.group ≠ pool.group) :
    Ledger [] [] { pool with world := pool.world.step action } := by
  obtain ⟨leased, owned, closes, raised⟩ := ledger
  obtain ⟨same, counts, leases⟩ := @step_other pool.world pool.group action differs
  refine ⟨⟨leased.sound.step action, ?_, ?_, fun id connection found => ?_, leased.separate⟩,
    ⟨counts.trans owned.admitted, owned.distinct, owned.live, owned.opened, ?_⟩,
    ⟨closes.passed, closes.takes, closes.refuses, closes.once, closes.dropped⟩, raised⟩
  · have free := leased.free
    simp only [unlocked, same] at free ⊢
    exact free
  · simp only [same]
    exact leased.exists_
  · obtain ⟨lease, out, mine, released⟩ := leased.lease id connection found
    exact ⟨lease, leases _ lease out mine, mine, released⟩
  · have bounded := owned.bounded
    simp only [maxIdle, same] at bounded ⊢
    exact bounded

theorem Ledger.closeIdle (ledger : pool.Ledger [] []) : ∃ pool' handles,
    closeIdleLocked pool = (pool', .ok handles) ∧ pool'.Ledger [] (Call.sweeping handles).due := by
  obtain ⟨leased, owned, closes, raised⟩ := ledger
  have taken : Ledger pool.idle [] { pool with idle := [] } := by
    refine ⟨⟨leased.sound, leased.free, leased.exists_, leased.lease, leased.separate⟩, ?_,
      ⟨closes.passed, closes.takes, closes.refuses, closes.once, closes.dropped⟩, raised⟩
    have same : pool.idle ++ [] ++ pool.checkedOut = [] ++ pool.idle ++ pool.checkedOut := by simp
    refine ⟨?_, ?_, ?_, ?_, Nat.zero_le _⟩
    · simp only [same]
      exact owned.admitted
    · simp only [same]
      exact owned.distinct
    · simp only [same]
      exact owned.live
    · simp only [List.append_nil]
      exact owned.opened
  obtain ⟨pool', handles, returns, after⟩ := taken.closeEach rfl
  rw [List.append_nil] at after
  exact ⟨pool', handles, returns, after⟩

theorem Ledger.step (ledger : pool.Ledger [] []) {action : Action} (once : pool.ReleasesOnce action) :
    (pool.step action).Ledger [] [] := by
  cases action with
  | reserve nowMs opens => exact Ledger.goes ledger
  | opened id handle => exact ledger.opened fun failed => once id (if_pos failed)
  | release id nowMs reusable =>
    simp only [UpstreamConnectionPool.step]
    obtain ⟨pool', returns, after⟩ | ⟨pool', handle, returns, after⟩ | raises :=
      ledger.releaseLocked (once id rfl) nowMs reusable
    · rw [returns]
      exact after
    · rw [returns]
      exact Ledger.goes after
    · rw [raises]
      exact ledger.raises (by decide)
  | closeIdle =>
    obtain ⟨pool', handles, returns, after⟩ := ledger.closeIdle
    simp only [UpstreamConnectionPool.step, returns]
    exact Ledger.goes after
  | proceed place result =>
    simp only [UpstreamConnectionPool.step]
    split
    · exact ledger
    · rename_i call found
      refine (ledger.takes_up found).proceed fun id is failed => once id ?_
      simp only [releases, found, is, failed, if_true]
  | other action =>
    simp only [UpstreamConnectionPool.step]
    split
    · exact ledger
    · rename_i differs
      exact ledger.other differs

end Step

/-- A pool that no call was made on, over groups that no call was made on. -/
structure Fresh (pool : UpstreamConnectionPool) : Prop where
  world : pool.world.Fresh
  group : pool.group < pool.world.groups.length
  idle : pool.idle = []
  connections : pool.connections = []
  calls : pool.calls = []
  checkedOut : pool.checkedOut = []
  passed : pool.passed = []
  closed : pool.closed = []
  raised : pool.raised = []

theorem Fresh.ledger {pool : UpstreamConnectionPool} (fresh : pool.Fresh) : pool.Ledger [] [] := by
  have at_ := List.getElem?_eq_getElem fresh.group
  obtain ⟨-, -, tried, -⟩ := fresh.world.listed _ (List.mem_of_getElem? at_)
  have closings : pool.closings = [] := by simp [closings, fresh.closed, fresh.calls]
  refine ⟨⟨fresh.world.sound, by simp [unlocked, at_, tried], ⟨_, at_⟩, by simp [fresh.connections],
    by simp [fresh.connections]⟩, ⟨?_, ?_, ?_, ?_, ?_⟩, ⟨?_, ?_, ?_, ?_, ?_⟩, by simp [fresh.raised]⟩
  · simp [outstanding, fresh.world.leases, fresh.idle, fresh.checkedOut]
  · simp [fresh.idle, fresh.checkedOut]
  · simp [fresh.idle, fresh.checkedOut, fresh.connections]
  · simp [fresh.idle]
  · simp [fresh.idle]
  · simp [fresh.passed]
  · simp [fresh.passed, fresh.connections]
  · simp [fresh.passed]
  · simp [closings]
  · simp [closings, fresh.passed]

theorem Fresh.run {pool : UpstreamConnectionPool} (fresh : pool.Fresh) {actions : List Action}
    (once : Interleaving.Along step ReleasesOnce actions pool) : (actions.foldl step pool).Ledger [] [] :=
  Interleaving.invariant_along (fun _ _ once ledger => ledger.step once) once fresh.ledger

/-- However its calls are interleaved, with callbacks that may raise and other groups on the same
endpoints, as long as no idle connection is released: the leases of the group are those of the idle
and of the checked-out connections, the idle ones are open, distinct and at most `max_idle`, and
nobody shares a connection. A handle that was passed to `opened` is closed at most once and only
when its lease is released or it was refused, and once when no call is under way and nobody has its
connection. No lease is released twice. What is assumed is that the pool is fresh, and that a holder
releases its connection once. Callbacks may raise at every place where the source calls one, and any
number of calls may be under way. -/
theorem pool_ownership (pool : UpstreamConnectionPool) (fresh : pool.Fresh) (actions : List Action)
    (once : Interleaving.Along step ReleasesOnce actions pool) :
    let pool' := actions.foldl step pool
    (∃ group, pool'.world.groups[pool'.group]? = some group ∧ group.active = pool'.checkedOut.length +
      pool'.idle.length ∧ group.active ≤ group.maxActive ∧ pool'.idle.length ≤ group.maxIdle) ∧
    (pool'.idle ++ pool'.checkedOut).Nodup ∧
    (∀ id ∈ pool'.idle, ∃ connection lease, pool'.connections[id]? = some connection ∧
      0 ≤ connection.handle ∧
      pool'.world.leases[connection.lease]? = some lease ∧ lease.released = false) ∧
    pool'.passed.Nodup ∧
    (∀ entry ∈ pool'.passed, pool'.closed.count entry ≤ 1 ∧
      (pool'.calls = [] → (∀ id, entry.1 = .connection id → id ∉ pool'.idle ∧ id ∉ pool'.checkedOut) →
        pool'.closed.count entry = 1)) ∧
    (∀ entry ∈ pool'.closed, entry ∈ pool'.passed ∧ ∀ id, entry.1 = .connection id → ∃ connection lease,
      pool'.connections[id]? = some connection ∧ connection.handle = entry.2 ∧
      pool'.world.leases[connection.lease]? = some lease ∧ lease.released = true) ∧
    (∀ call handle, (Owner.refused call, handle) ∈ pool'.passed → (Owner.refused call, handle) ∈
      pool'.closings) ∧ Exn.runtime "upstream lease released more than once" ∉ pool'.raised := by
  intro pool'
  obtain ⟨leased, owned, closes, raised⟩ : pool'.Ledger [] [] := fresh.run once
  have once : (pool'.closed ++ pool'.calls.flatMap Call.due).Nodup := by simpa [closings] using closes.once
  have dropped (entry : Owner × Int) :
      entry ∈ pool'.closings ↔ entry ∈ pool'.passed ∧ pool'.Dropped entry.1 := by
    simpa using closes.dropped entry
  refine ⟨?_, by simpa using owned.distinct, fun id among => ?_, closes.passed, fun entry member =>
    ⟨?_, fun quiet away => ?_⟩,
    fun entry member => ?_, fun call handle member => (dropped _).mpr ⟨member, trivial⟩, raised⟩
  · obtain ⟨group, at_⟩ := leased.exists_
    have counted := leased.sound.admitted _ group at_
    have admitted := owned.admitted
    have bounded := owned.bounded
    simp only [List.nil_append, List.length_append] at admitted
    simp only [maxIdle, at_, Option.map_some, Option.getD_some] at bounded
    exact ⟨group, at_, by omega, (leased.sound.bounded _ group at_).1, bounded⟩
  · obtain ⟨connection, found, positive⟩ := owned.opened id among
    obtain ⟨_, is, live⟩ := (owned.live id).mp (by simp [among])
    rw [found] at is
    cases is
    obtain ⟨lease, out, -, same⟩ := leased.lease id connection found
    exact ⟨connection, lease, found, positive, out, same.trans live⟩
  · exact List.nodup_iff_count_le_one.mp once.of_append_left entry
  · have due : entry ∈ pool'.closings := by
      refine (dropped entry).mpr ⟨member, ?_⟩
      obtain ⟨owner, handle⟩ := entry
      cases owner with
      | refused call => trivial
      | connection id =>
        obtain ⟨-, connection, found, -⟩ := (closes.takes id handle).mp member
        obtain ⟨notIdle, notOut⟩ := away id rfl
        refine ⟨connection, found, ?_⟩
        by_contra live
        have among := (owned.live id).mpr ⟨connection, found, by simpa using live⟩
        simp [notIdle, notOut] at among
    simp only [closings, quiet, List.flatMap_nil, List.append_nil] at due
    exact List.count_eq_one_of_mem once.of_append_left due
  · obtain ⟨passed, gone⟩ := (dropped entry).mp (List.mem_append_left _ member)
    refine ⟨passed, fun id isConnection => ?_⟩
    obtain ⟨owner, handle⟩ := entry
    cases isConnection
    obtain ⟨connection, found, released⟩ := gone
    obtain ⟨-, _, is, handle⟩ := (closes.takes id handle).mp passed
    rw [found] at is
    cases is
    obtain ⟨lease, out, -, same⟩ := leased.lease id connection found
    exact ⟨connection, lease, found, handle, out, same.trans released⟩

theorem loneEndpoint_some : ([0] : List Nat) ≠ [] := by decide

theorem idleTimeout_pos : (0 : Int) < 100 := by decide

/-- A group of one endpoint that has room for two leases. -/
def twoConnections : UpstreamConnectionPool where
  world :=
    { endpoints := [{ weight := 1, positive := Nat.one_pos }]
      groups := [{
        endpoints := [0], maxActive := 2, maxIdle := 2, some_ := loneEndpoint_some, admits := Nat.two_pos }] }
  group := 0
  idleTimeoutMs := 100
  positive := idleTimeout_pos

theorem twoConnections_fresh : twoConnections.Fresh :=
  ⟨⟨by decide, by decide, rfl, rfl⟩, by decide, rfl, rfl, rfl, rfl, rfl, rfl, rfl⟩

/-- Two connections are opened. One is closed by its release; the other goes back, expires, and its
callback raises. A handle comes too late for the first. -/
def twoReleases : List Action :=
  [.reserve 0 false, .proceed 0 none, .opened 0 7, .reserve 0 true, .proceed 0 none,
    .proceed 0 (some 9), .release 0 5 true,
    .release 1 6 false, .proceed 0 none, .reserve 200 false, .proceed 0 none, .proceed 0 none,
    .opened 1 11, .proceed 0 none]

theorem pool_ownership_twoReleases : (twoReleases.foldl step twoConnections).closed =
      [(.connection 1, 9), (.connection 0, 7), (.refused 2, 11)] ∧
    (twoReleases.foldl step twoConnections).closed.count (.connection 0, 7) = 1 ∧
    ∃ group,
    (twoReleases.foldl step twoConnections).world.groups[(twoReleases.foldl step
      twoConnections).group]? = some group ∧
      group.active = (twoReleases.foldl step twoConnections).checkedOut.length +
        (twoReleases.foldl step twoConnections).idle.length := by
  have ownership := pool_ownership twoConnections twoConnections_fresh twoReleases (by decide)
  obtain ⟨⟨group, found, active, -⟩, -, -, -, closes, -⟩ := ownership
  refine ⟨by decide, (closes (.connection 0, 7) (by decide)).2 ?_ ?_, group, found, active⟩
  · exact List.eq_nil_of_length_eq_zero (by decide)
  · intro id _
    have nobody : (twoReleases.foldl step twoConnections).idle = [] ∧
        (twoReleases.foldl step twoConnections).checkedOut = [] := by
      decide
    rw [nobody.1, nobody.2]
    exact ⟨List.not_mem_nil, List.not_mem_nil⟩

theorem releaseLease_errors (world : Upstreams) (id lease : Nat) (failed : Bool) :
    (world.releaseLease id lease failed).2 ≠
    .error (.runtime "upstream connection released more than once") := by
  unfold releaseLease
  split
  · split
    · simp
    · simp only
      split
      · simp
      · rename_i endpoint _
        unfold UpstreamEndpoint.release
        split
        · rename_i raises
          split at raises
          · cases raises
            simp
          · cases raises
        · simp
  · simp

theorem closeLocked_errors (pool : UpstreamConnectionPool) (id : Nat) (failed : Bool) :
    (closeLocked id failed pool).2 ≠ .error (.runtime "upstream connection released more than once") := by
  unfold closeLocked
  split
  · simp
  · rename_i connection _
    split
    · simp
    · simp only [putConnection]
      have lease := releaseLease_errors pool.world pool.group connection.lease failed
      generalize pool.world.releaseLease pool.group connection.lease failed = result at lease ⊢
      obtain ⟨world, outcome⟩ := result
      cases outcome with
      | ok => simp
      | error => simpa using lease

/-- `release` raises exactly when the lease is released. -/
theorem releaseLocked_raises_iff (pool : UpstreamConnectionPool) {id : Nat}
    {connection : PooledUpstreamConnection}
    (found : pool.connections[id]? = some connection) (nowMs : Int) (reusable : Bool) :
    releaseLocked id nowMs reusable pool =
      (pool, .error (.runtime "upstream connection released more than once")) ↔
      connection.released = true := by
  cases released : connection.released with
  | true => simp [releaseLocked, found, released]
  | false =>
    refine iff_of_false (fun raises => ?_) (by simp)
    simp only [releaseLocked, found, released, Bool.false_eq_true, if_false] at raises
    split at raises
    · cases congrArg Prod.snd raises
    · have closes := closeLocked_errors (pool.putConnection id { connection with
        released := false, lastUsedMs := nowMs }) id
        (!reusable)
      generalize closeLocked id (!reusable) _ = result at raises closes
      obtain ⟨next, outcome⟩ := result
      cases outcome with
      | ok => cases congrArg Prod.snd raises
      | error error =>
        cases congrArg Prod.snd raises
        exact closes rfl

/-- After any history a release raises and changes nothing exactly when the connection's lease is
released. While no idle connection was released, a second release raises exactly when the first one
did not put the connection back, and no connection is twice in the idle list or handed to two users.
The first part assumes nothing but that the pool was fresh. The second one assumes that no idle
connection was released before. -/
theorem release_again (pool : UpstreamConnectionPool) (fresh : pool.Fresh) (actions : List Action) :
    let pool' := actions.foldl step pool
    (∀ id connection, pool'.connections[id]? = some connection → ∀ nowMs reusable,
      (releaseLocked id nowMs reusable pool' =
        (pool', .error (.runtime "upstream connection released more than once")) ↔
        connection.released = true)) ∧
    (Interleaving.Along step ReleasesOnce actions pool →
      (∀ id connection, pool'.connections[id]? = some connection → id ∉ pool'.checkedOut → ∀ nowMs reusable,
        (releaseLocked id nowMs reusable pool' =
          (pool', .error (.runtime "upstream connection released more than once")) ↔
          id ∉ pool'.idle)) ∧
      pool'.idle.Nodup ∧ pool'.checkedOut.Nodup ∧ ∀ id ∈ pool'.idle, id ∉ pool'.checkedOut) := by
  intro pool'
  refine ⟨fun id connection found => releaseLocked_raises_iff pool' found, fun once => ?_⟩
  obtain ⟨-, owned, -⟩ : pool'.Ledger [] [] := fresh.run once
  have distinct := List.nodup_append.mp owned.distinct
  simp only [List.nil_append] at distinct
  refine ⟨fun id connection found away nowMs reusable => ?_, distinct.1, distinct.2.1,
    fun id among out => ?_⟩
  · rw [releaseLocked_raises_iff pool' found]
    have live := owned.live id
    simp only [List.nil_append, List.mem_append, away, or_false, found, Option.some.injEq,
      exists_eq_left'] at live
    rw [live]
    simp
  · exact distinct.2.2 id among id out rfl

/-- A connection whose release closes it. -/
def closedRelease : List Action := [.reserve 0 false, .proceed 0 none, .opened 0 7, .release 0 1 false]

theorem release_again_closed : releaseLocked 0 2 true (closedRelease.foldl step twoConnections) =
    (closedRelease.foldl step twoConnections,
      .error (.runtime "upstream connection released more than once")) := by
  have again := release_again twoConnections twoConnections_fresh closedRelease
  obtain ⟨connection, found⟩ := Option.isSome_iff_exists.mp
    (by decide : (closedRelease.foldl step twoConnections).connections[0]?.isSome = true)
  refine ((again.2 (by decide)).1 0 connection found (by decide) 2 true).mpr ?_
  decide

/-- A connection whose release puts it back. -/
def keptRelease : List Action := [.reserve 0 false, .proceed 0 none, .opened 0 7, .release 0 1 true]

/-- The second release puts it back again, and two users get it. -/
theorem released_twice_shared :
    (releaseLocked 0 2 true (keptRelease.foldl step twoConnections)).2.toOption = some none ∧
    (releaseLocked 0 2 true (keptRelease.foldl step twoConnections)).1.idle = [0, 0] ∧
    ((keptRelease ++ [Action.release 0 2 true, .reserve 3 false, .reserve 3 false, .proceed 0 none,
      .proceed 0 none]).foldl step
      twoConnections).checkedOut = [0, 0] := by
  decide

end UpstreamConnectionPool
end Upstreams
end PccGateway
