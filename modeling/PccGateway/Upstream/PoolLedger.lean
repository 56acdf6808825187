import PccGateway.Upstream.Pool

namespace PccGateway
namespace Upstreams

section Group
variable {world : Upstreams} {id : Nat} {group : UpstreamGroup}

theorem attempt_free (found : world.groups[id]? = some group) (free : group.tried = none) :
    world.attempt id = world := by
  simp [attempt, found, free]

/-- A pass of `acquire` refuses or makes a lease, and gives the lock back after its last endpoint. -/
theorem Sound.attempt_cases (sound : world.Sound) (found : world.groups[id]? = some group) {tried : Nat}
    (holding : group.tried = some tried) :
    ∃ next : UpstreamGroup, (world.attempt id).groups[id]? = some next ∧ next.endpoints = group.endpoints ∧
      ((next.tried = some (tried + 1) ∧ tried + 1 < group.endpoints.length ∧
        (world.attempt id).leases = world.leases) ∨
        next.tried = none ∧ ((world.attempt id).leases = world.leases ∨
          ∃ place, (world.attempt id).leases = world.leases ++ [{ group := id, endpoint := place }])) := by
  obtain ⟨cursor, listed⟩ := sound.listed id group found
  have place := List.getElem?_eq_getElem cursor
  have at_ := List.getElem?_eq_getElem (listed _ (List.mem_of_getElem? place))
  have put (next : UpstreamGroup) : (world.groups.set id next)[id]? = some next :=
    (Counting.set_at found next id).trans (if_pos rfl)
  simp only [Upstreams.attempt, found, holding, place, at_]
  split
  · exact ⟨_, put _, rfl, .inr ⟨rfl, .inr ⟨_, rfl⟩⟩⟩
  · split
    · rename_i more
      exact ⟨_, put _, rfl, .inl ⟨rfl, more, rfl⟩⟩
    · exact ⟨_, put _, rfl, .inr ⟨rfl, .inl rfl⟩⟩

/-- `acquire` asks every endpoint at most once and then has given the lock back. -/
theorem Sound.attempts (sound : world.Sound) (found : world.groups[id]? = some group) {tried count : Nat}
    (holding : group.tried = some tried) (within : tried < group.endpoints.length)
    (enough : group.endpoints.length ≤ tried + count) :
    ((Upstreams.attempt id)^[count] world).Sound ∧ ((Upstreams.attempt id)^[count] world).unlocked
    id = true ∧ (((Upstreams.attempt id)^[count] world).leases = world.leases ∨
        ∃ place, ((Upstreams.attempt id)^[count] world).leases = world.leases ++
          [{ group := id, endpoint := place }]) := by
  induction count generalizing world group tried with
  | zero => omega
  | succ count ih =>
    rw [Function.iterate_succ_apply]
    obtain ⟨next, at_, same, ⟨asked, more, leases⟩ | ⟨done, leases⟩⟩ := sound.attempt_cases found holding
    · rw [← leases]
      exact ih (sound.attempt id) at_ asked (same ▸ more) (by rw [same]; omega)
    · -- the passes that are left find the lock free
      have rest : (Upstreams.attempt id)^[count] (world.attempt id) = world.attempt id :=
        Function.iterate_fixed (attempt_free at_ done) count
      rw [rest]
      exact ⟨sound.attempt id, by simp [unlocked, at_, done], leases⟩

theorem settings_attempts (world : Upstreams) (id count : Nat) :
    ((attempt id)^[count] world).settings = world.settings := by
  induction count with
  | zero => rfl
  | succ count ih =>
    rw [Function.iterate_succ_apply']
    exact (step_settings _ (.attempt id)).trans ih

/-- `acquire` finds a full group, or it makes a lease. -/
theorem Sound.acquire_cases (sound : world.Sound) (free : world.unlocked id = true) :
    (world.acquire id).1.Sound ∧ (world.acquire id).1.unlocked id = true ∧
    (world.acquire id).1.settings = world.settings ∧
      ((world.acquire id).2 = none ∧ (world.acquire id).1.leases = world.leases ∨
        (world.acquire id).2 = some world.leases.length ∧
          ∃ place, (world.acquire id).1.leases = world.leases ++ [{ group := id, endpoint := place }]) := by
  have settings : (world.acquire id).1.settings = world.settings :=
    (settings_attempts _ _ _).trans (step_settings world (.acquire id))
  have parts : (world.acquire id).1.Sound ∧ (world.acquire id).1.unlocked id = true ∧
      ((world.acquire id).1.leases = world.leases ∨
        ∃ place, (world.acquire id).1.leases = world.leases ++ [{ group := id, endpoint := place }]) := by
    cases found : world.groups[id]? with
    | none =>
      have same : (world.acquire id).1 = world := by simp [acquire, Upstreams.enter, found]
      rw [same]
      exact ⟨sound, free, .inl rfl⟩
    | some group =>
      have unlocked : group.tried = none := by simpa [unlocked, found] using free
      have put (next : UpstreamGroup) : (world.groups.set id next)[id]? = some next :=
        (Counting.set_at found next id).trans (if_pos rfl)
      have after := sound.enter id
      by_cases full : group.maxActive ≤ group.active
      · have entered : world.enter id = world.putGroup id (group.returned none) := by
          simp [Upstreams.enter, found, unlocked, full]
        have same : (world.acquire id).1 = world.enter id := by
          simp only [acquire, entered]
          exact Function.iterate_fixed (attempt_free (put _) rfl) _
        rw [same]
        refine ⟨after, ?_, .inl ?_⟩
        · rw [entered]
          simp [Upstreams.unlocked, putGroup, put, UpstreamGroup.returned]
        · rw [entered]
          rfl
      · have entered : world.enter id = world.putGroup id { group with tried := some 0 } := by
          simp [Upstreams.enter, found, unlocked, full]
        have same : (world.acquire id).1 =
            (Upstreams.attempt id)^[group.endpoints.length] (world.putGroup id { group with
              tried := some 0 }) := by
          simp only [acquire, entered, putGroup, put, Option.map_some, Option.getD_some]
        rw [entered] at after
        rw [same]
        exact after.attempts (put { group with tried := some 0 }) rfl (List.length_pos_iff.mpr group.some_)
          (Nat.zero_add group.endpoints.length).ge
  obtain ⟨after, free, leases⟩ := parts
  have result : (world.acquire id).2 =
      if world.leases.length < (world.acquire id).1.leases.length then some world.leases.length
        else none := rfl
  refine ⟨after, free, settings, ?_⟩
  rcases leases with same | ⟨place, more⟩
  · exact .inl ⟨by rw [result, same, if_neg (Nat.lt_irrefl _)], same⟩
  · exact .inr ⟨by rw [result, more, if_pos (by simp)], place, more⟩

/-- The other groups leave a group and its leases alone. -/
theorem step_other {action : Action} (differs : action.group ≠ id) :
    (world.step action).groups[id]? = world.groups[id]? ∧ (world.step action).outstanding id =
    world.outstanding id ∧
      ∀ (index : Nat) (lease : UpstreamLease), world.leases[index]? = some lease → lease.group = id →
        (world.step action).leases[index]? = some lease := by
  have put {other : Nat} (differs : other ≠ id) (next : UpstreamGroup) :
      (world.groups.set other next)[id]? = world.groups[id]? :=
    List.getElem?_set_ne differs
  have same : world.groups[id]? = world.groups[id]? ∧ world.outstanding id = world.outstanding id ∧
      ∀ (index : Nat) (lease : UpstreamLease), world.leases[index]? = some lease → lease.group = id →
        world.leases[index]? = some lease := ⟨rfl, rfl, fun _ _ at_ _ => at_⟩
  cases action with
  | acquire other =>
    simp only [step, enter]
    split
    · exact same
    · split
      · exact same
      · split <;> exact ⟨put differs _, same.2⟩
  | attempt other =>
    simp only [step, attempt]
    split
    · exact same
    · split
      · split
        · exact same
        · split
          · refine ⟨put differs _, ?_, fun index lease at_ _ => ?_⟩
            · have theirs : ¬ other = id := differs
              simp [outstanding, List.countP_append, theirs]
            · rw [List.getElem?_append_left (List.getElem?_eq_some_iff.mp at_).1, at_]
          · split <;> exact ⟨put differs _, same.2⟩
      · exact same
  | release other lease failed =>
    have theirs : ¬ other = id := differs
    have released : (world.releaseLease other lease failed).1.groups[id]? = world.groups[id]? ∧
        (world.releaseLease other lease failed).1.outstanding id = world.outstanding id ∧
        ∀ (index : Nat) (mine : UpstreamLease), world.leases[index]? = some mine → mine.group = id →
          (world.releaseLease other lease failed).1.leases[index]? = some mine := by
      unfold releaseLease
      split
      · rename_i group held found out
        split
        · exact same
        · rename_i valid
          simp only [not_or, not_not] at valid
          have counts : (world.leases.set lease { held with released := true }).countP
              (fun lease => decide (lease.group = id ∧ lease.released = false)) = world.outstanding id :=
            Counting.countP_set_same out (by simp [valid.1, theirs])
          have keeps (index : Nat) (mine : UpstreamLease) (at_ : world.leases[index]? = some mine)
              (isMine : mine.group = id) :
              (world.leases.set lease { held with released := true })[index]? = some mine := by
            rw [List.getElem?_set_ne, at_]
            rintro rfl
            rw [out] at at_
            cases at_
            exact theirs (valid.1.symm.trans isMine)
          simp only
          split
          · exact ⟨rfl, counts, keeps⟩
          · split
            · exact ⟨rfl, counts, keeps⟩
            · exact ⟨put differs _, counts, keeps⟩
      · exact same
    simp only [step]
    split
    · generalize world.releaseLease other lease failed = result at released ⊢
      obtain ⟨next, outcome⟩ := result
      cases outcome with
      | ok => exact released
      | error => exact released
    · exact same

end Group

/-- The handle that a call closes, if it is one. -/
def dueOf (owner : Owner) (handle : Int) : List (Owner × Int) :=
  if 0 ≤ handle then [(owner, handle)] else []

/-- The handles that a call has yet to close. -/
def Call.due : Call → List (Owner × Int)
  | .reserving _ _ | .opening _ => []
  | .expired _ _ connection handle => dueOf (.connection connection) handle
  | .closing owner handle => dueOf owner handle
  | .sweeping handles => handles.flatMap fun entry => dueOf (.connection entry.1) entry.2

namespace UpstreamConnectionPool

/-- The handles that were closed or will be. -/
def closings (pool : UpstreamConnectionPool) : List (Owner × Int) :=
  pool.closed ++ pool.calls.flatMap Call.due

/-- Nothing has the handle any more: it was refused, or the lease of its connection is released. -/
def Dropped (pool : UpstreamConnectionPool) : Owner → Prop
  | .refused _ => True
  | .connection id => ∃ connection, pool.connections[id]? = some connection ∧ connection.released = true

/-- The leases of the group are those of the connections. -/
structure Leased (pool : UpstreamConnectionPool) : Prop where
  sound : pool.world.Sound
  free : pool.world.unlocked pool.group = true
  exists_ : ∃ group, pool.world.groups[pool.group]? = some group
  lease : ∀ (id : Nat) (connection : PooledUpstreamConnection), pool.connections[id]? = some connection →
    ∃ lease : UpstreamLease, pool.world.leases[connection.lease]? = some lease ∧ lease.group = pool.group ∧
      lease.released = connection.released
  separate : ∀ (id other : Nat) (connection found : PooledUpstreamConnection), pool.connections[id]? =
    some connection → pool.connections[other]? = some found →
    connection.lease = found.lease → id = other

/-- The connections that are open or may be: `loose` ones were taken from the idle list under the lock. -/
structure Owned (loose : List Nat) (pool : UpstreamConnectionPool) : Prop where
  admitted : pool.world.outstanding pool.group = (loose ++ pool.idle ++ pool.checkedOut).length
  distinct : (loose ++ pool.idle ++ pool.checkedOut).Nodup
  live : ∀ id, id ∈ loose ++ pool.idle ++ pool.checkedOut ↔
    ∃ connection, pool.connections[id]? = some connection ∧ connection.released = false
  opened : ∀ id ∈ loose ++ pool.idle, ∃ connection, pool.connections[id]? = some connection ∧
    0 ≤ connection.handle
  bounded : pool.idle.length ≤ pool.maxIdle

/-- Every handle that was passed to `opened` has one owner, and those that nothing has any more are
closed once, `due` of them by the call that has the lock. -/
structure Closes (due : List (Owner × Int)) (pool : UpstreamConnectionPool) : Prop where
  passed : pool.passed.Nodup
  takes : ∀ id handle, (Owner.connection id, handle) ∈ pool.passed ↔
    0 ≤ handle ∧ ∃ connection, pool.connections[id]? = some connection ∧ connection.handle = handle
  refuses : ∀ call handle, (Owner.refused call, handle) ∈ pool.passed → call < pool.passed.length
  once : (pool.closings ++ due).Nodup
  dropped : ∀ entry, entry ∈ pool.closings ++ due ↔ entry ∈ pool.passed ∧ pool.Dropped entry.1

structure Ledger (loose : List Nat) (due : List (Owner × Int)) (pool : UpstreamConnectionPool) : Prop where
  leased : pool.Leased
  owned : pool.Owned loose
  closes : pool.Closes due
  raised : Exn.runtime "upstream lease released more than once" ∉ pool.raised

section Ledger
variable {pool : UpstreamConnectionPool} {loose : List Nat} {due due' : List (Owner × Int)}

/-- Handles move between the calls and `close_connection`. -/
theorem Ledger.settle (ledger : pool.Ledger loose due) {calls : List Call}
    {closed : List (Owner × Int)} {raised : List Exn}
    (moved : (closed ++ calls.flatMap Call.due ++ due').Perm (pool.closings ++ due))
    (apart : Exn.runtime "upstream lease released more than once" ∉ raised) :
    Ledger loose due' { pool with calls, closed, raised } := by
  obtain ⟨leased, owned, closes, -⟩ := ledger
  refine ⟨⟨leased.sound, leased.free, leased.exists_, leased.lease, leased.separate⟩,
    ⟨owned.admitted, owned.distinct, owned.live, owned.opened, owned.bounded⟩,
    ⟨closes.passed, closes.takes, closes.refuses, moved.nodup_iff.mpr closes.once, fun entry => ?_⟩, apart⟩
  obtain ⟨owner, handle⟩ := entry
  refine (moved.mem_iff.trans (closes.dropped (owner, handle))).trans ?_
  cases owner with
  | connection id => exact Iff.rfl
  | refused call => exact Iff.rfl

theorem Ledger.reorder (ledger : pool.Ledger loose due) (moved : due'.Perm due) : pool.Ledger loose due' :=
  ledger.settle (moved.append_left _) ledger.raised

/-- A call leaves the lock with the handles it has to close. -/
theorem Ledger.goes {call : Call} (ledger : pool.Ledger loose call.due) :
    (pool.goes call).Ledger loose [] := by
  refine ledger.settle ?_ ledger.raised
  simp [closings]

/-- A call goes on. -/
theorem Ledger.takes_up (ledger : pool.Ledger loose []) {place : Nat} {call : Call}
    (found : pool.calls[place]? = some call) :
    Ledger loose call.due { pool with calls := pool.calls.eraseIdx place } := by
  refine ledger.settle ?_ ledger.raised
  obtain ⟨inRange, is⟩ := List.getElem?_eq_some_iff.mp found
  have moved : (call :: pool.calls.eraseIdx place).Perm pool.calls := by
    have split : pool.calls.take place ++ call :: pool.calls.drop (place + 1) = pool.calls := by
      rw [← is, List.getElem_cons_drop, List.take_append_drop]
    rw [List.eraseIdx_eq_take_drop_succ]
    exact List.perm_middle.symm.trans (.of_eq split)
  have flat := moved.flatMap_right Call.due
  simp only [closings, List.append_nil, List.append_assoc, List.flatMap_cons] at flat ⊢
  exact (List.perm_append_comm.trans flat).append_left pool.closed

theorem Ledger.closeHandle {owner : Owner} {handle : Int}
    (ledger : pool.Ledger loose (dueOf owner handle ++ due)) :
    (pool.closeHandle owner handle).Ledger loose due := by
  unfold UpstreamConnectionPool.closeHandle
  split
  · rename_i open_
    refine ledger.settle ?_ ledger.raised
    simp only [closings, dueOf, if_pos open_, List.append_assoc]
    exact (List.perm_append_comm_assoc _ _ _).append_left pool.closed
  · rename_i none_
    have nothing : dueOf owner handle = [] := if_neg none_
    rw [nothing, List.nil_append] at ledger
    exact ledger

theorem Ledger.raises (ledger : pool.Ledger loose due) {error : Exn}
    (differs : error ≠ .runtime "upstream lease released more than once") :
    (pool.raises error).Ledger loose due := by
  refine ledger.settle (.refl _) ?_
  simp only [List.mem_append, List.mem_singleton, not_or]
  exact ⟨ledger.raised, Ne.symm differs⟩

/-- What stays the same of every connection when one that keeps `view` is replaced. -/
theorem exists_set {connections : List PooledUpstreamConnection} {id : Nat}
    {connection next : PooledUpstreamConnection}
    (found : connections[id]? = some connection) {P : PooledUpstreamConnection → Prop}
    (same : P next ↔ P connection) (other : Nat) :
    (∃ found, (connections.set id next)[other]? = some found ∧ P found) ↔ ∃ found,
    connections[other]? = some found ∧ P found := by
  rw [Counting.set_at found]
  by_cases mine : id = other
  · subst mine
    simpa [found] using same
  · simp [mine]

/-- A connection that is not idle leaves the list of those that are out. -/
theorem Owned.erase_eq (owned : pool.Owned loose) {id : Nat} (away : id ∉ pool.idle) :
    (loose ++ pool.idle ++ pool.checkedOut).erase id = loose.erase id ++ pool.idle ++
    pool.checkedOut.erase id := by
  by_cases among : id ∈ loose
  · have apart : id ∉ pool.checkedOut := by
      have distinct := owned.distinct
      rw [List.append_assoc, List.nodup_append] at distinct
      intro member
      exact distinct.2.2 id among id (List.mem_append_right _ member) rfl
    rw [List.append_assoc, List.erase_append_left _ among, List.erase_of_not_mem apart, List.append_assoc]
  · have absent : id ∉ loose ++ pool.idle := by simp [among, away]
    rw [List.erase_append_right _ absent, List.erase_of_not_mem among]

theorem Leased.separate_set (leased : pool.Leased) {id : Nat} {connection next : PooledUpstreamConnection}
    (found : pool.connections[id]? = some connection) (same : next.lease = connection.lease)
    (one other : Nat)
    (first second : PooledUpstreamConnection) (is1 : (pool.connections.set id next)[one]? = some first)
    (is2 : (pool.connections.set id next)[other]? = some second)
    (shared : first.lease = second.lease) : one = other := by
  have old {place : Nat} {theirs : PooledUpstreamConnection}
      (is : (pool.connections.set id next)[place]? = some theirs) :
      ∃ found, pool.connections[place]? = some found ∧ found.lease = theirs.lease :=
    (exists_set found (by rw [same]) place).mp ⟨theirs, is, rfl⟩
  obtain ⟨a, isA, leaseA⟩ := old is1
  obtain ⟨b, isB, leaseB⟩ := old is2
  exact leased.separate one other a b isA isB (leaseA.trans (shared.trans leaseB.symm))

section Release
variable {id : Nat} {connection : PooledUpstreamConnection} {world : Upstreams}
  {group : UpstreamGroup} {held : UpstreamLease}
  (found : pool.connections[id]? = some connection) (live : connection.released = false)
include found

theorem Leased.release (leased : pool.Leased) (at_ : pool.world.groups[pool.group]? = some group)
    (free : group.tried = none)
    (out : pool.world.leases[connection.lease]? = some held) (mine : held.group = pool.group)
    (sound : world.Sound)
    (leases : world.leases = pool.world.leases.set connection.lease { held with released := true })
    (groups : world.groups = pool.world.groups.set pool.group { group with active := group.active - 1 }) :
    Leased { pool with
      world
      connections := pool.connections.set id { connection with released := true }
      checkedOut := pool.checkedOut.erase id } := by
  have put : world.groups[pool.group]? = some { group with active := group.active - 1 } := by
    rw [groups, Counting.set_at at_, if_pos rfl]
  refine ⟨sound, by simp [unlocked, put, free], ⟨_, put⟩, fun other theirs is => ?_,
    leased.separate_set found rfl⟩
  · simp only at is ⊢
    rw [Counting.set_at found] at is
    rw [leases, Counting.set_at out]
    split at is
    · cases is
      exact ⟨_, if_pos rfl, mine, rfl⟩
    · rename_i differs
      have apart : connection.lease ≠ theirs.lease := fun same =>
        differs (leased.separate id other connection theirs found is same)
      rw [if_neg apart]
      exact leased.lease other theirs is

include live

theorem Owned.release (owned : pool.Owned loose) (before : pool.world.Sound)
    (at_ : pool.world.groups[pool.group]? = some group)
    (sound : world.Sound) (groups : world.groups = pool.world.groups.set pool.group { group with
      active := group.active - 1 })
    (away : id ∉ pool.idle) :
    Owned (loose.erase id) { pool with
      world
      connections := pool.connections.set id { connection with released := true }
      checkedOut := pool.checkedOut.erase id } := by
  have put : world.groups[pool.group]? = some { group with active := group.active - 1 } := by
    rw [groups, Counting.set_at at_, if_pos rfl]
  have member : id ∈ loose ++ pool.idle ++ pool.checkedOut := (owned.live id).mpr ⟨connection, found, live⟩
  have erased := owned.erase_eq away
  refine ⟨?_, ?_, fun other => ?_, fun other among => ?_, ?_⟩
  · have counted := before.admitted _ group at_
    have counts := sound.admitted _ _ put
    have admitted := owned.admitted
    have shorter := List.length_erase_of_mem member
    have positive := List.length_pos_of_mem member
    simp only at counts ⊢
    rw [← erased, shorter]
    omega
  · simp only
    rw [← erased]
    exact owned.distinct.erase id
  · simp only
    rw [← erased, owned.distinct.mem_erase_iff, owned.live other, Counting.set_at found]
    by_cases mine : id = other
    · simp [mine]
    · simp [mine, Ne.symm mine]
  · have old : other ∈ loose ++ pool.idle := by
      rcases List.mem_append.mp among with inLoose | inIdle
      · exact List.mem_append_left _ (List.mem_of_mem_erase inLoose)
      · exact List.mem_append_right _ inIdle
    exact (exists_set found (Iff.rfl : (0 ≤ connection.handle) ↔ 0 ≤ connection.handle) other).mpr
      (owned.opened other old)
  · have same : maxIdle { pool with world } = pool.maxIdle := by simp [maxIdle, put, at_]
    exact same ▸ owned.bounded

theorem Closes.release (closes : pool.Closes due) :
    Closes (dueOf (.connection id) connection.handle ++ due) { pool with
      world
      connections := pool.connections.set id { connection with released := true }
      checkedOut := pool.checkedOut.erase id } := by
  have now (owner : Owner) : Dropped { pool with
      world
      connections := pool.connections.set id { connection with released := true }
      checkedOut := pool.checkedOut.erase id } owner ↔ pool.Dropped owner ∨ owner = .connection id := by
    cases owner with
    | refused call => simp [Dropped]
    | connection other =>
      simp only [Dropped, Owner.connection.injEq, Counting.set_at found]
      by_cases mine : id = other
      · simp [mine]
      · simp [mine, Ne.symm mine]
  have given (entry : Owner × Int) : entry ∈ dueOf (.connection id) connection.handle ↔
      entry ∈ pool.passed ∧ entry.1 = .connection id := by
    obtain ⟨owner, handle⟩ := entry
    have took := closes.takes id handle
    simp only [found, Option.some.injEq, exists_eq_left'] at took
    unfold dueOf
    split
    · simp only [List.mem_singleton, Prod.mk.injEq]
      constructor
      · rintro ⟨rfl, rfl⟩
        exact ⟨took.mpr ⟨‹_›, rfl⟩, rfl⟩
      · rintro ⟨member, rfl⟩
        exact ⟨rfl, (took.mp member).2.symm⟩
    · simp only [List.not_mem_nil, false_iff, not_and]
      rintro member rfl
      obtain ⟨positive, rfl⟩ := took.mp member
      contradiction
  have moved : (pool.closings ++ (dueOf (.connection id) connection.handle ++ due)).Perm
      (dueOf (.connection id) connection.handle ++ (pool.closings ++ due)) :=
        List.perm_append_comm_assoc _ _ _
  refine ⟨closes.passed, fun other handle => ?_, closes.refuses, ?_, fun entry => ?_⟩
  · rw [closes.takes]
    refine and_congr_right fun _ => (exists_set found ?_ other).symm
    exact Iff.rfl
  · refine moved.nodup_iff.mpr
      (List.nodup_append.mpr ⟨?_, closes.once, fun entry mine other theirs same => ?_⟩)
    · unfold dueOf
      split <;> simp
    · subst same
      obtain ⟨-, dropped⟩ := (closes.dropped entry).mp theirs
      rw [((given entry).mp mine).2] at dropped
      obtain ⟨_, is, released⟩ := dropped
      rw [found] at is
      cases is
      rw [live] at released
      cases released
  · refine moved.mem_iff.trans ?_
    rw [List.mem_append, closes.dropped, given, now]
    tauto

end Release

theorem Ledger.closeLocked (ledger : pool.Ledger loose due) {id : Nat} (away : id ∉ pool.idle)
    (failed : Bool) :
    ∃ pool' handle, UpstreamConnectionPool.closeLocked id failed pool = (pool', .ok handle) ∧
    pool'.idle = pool.idle ∧
      pool'.Ledger (loose.erase id) (dueOf (.connection id) handle ++ due) := by
  obtain ⟨leased, owned, closes, raised⟩ := ledger
  have nothing (gone : ¬ ∃ connection, pool.connections[id]? = some connection ∧
    connection.released = false) :
      pool.Ledger (loose.erase id) (dueOf (.connection id) (-1) ++ due) := by
    have absent : id ∉ loose := by
      intro member
      exact gone ((owned.live id).mp (by simp [member]))
    rw [List.erase_of_not_mem absent]
    exact ⟨leased, owned, closes, raised⟩
  unfold UpstreamConnectionPool.closeLocked
  split
  · rename_i missing
    exact ⟨pool, -1, rfl, rfl, nothing (by simp [missing])⟩
  · rename_i connection found
    split
    · rename_i released
      exact ⟨pool, -1, rfl, rfl, nothing (by simp [found, released])⟩
    · rename_i unreleased
      have live : connection.released = false := by simpa using unreleased
      obtain ⟨group, at_⟩ := leased.exists_
      obtain ⟨held, out, mine, same⟩ := leased.lease id connection found
      have free : group.tried = none := by simpa [unlocked, at_] using leased.free
      obtain ⟨world, returns, sound, leases, groups⟩ :=
        leased.sound.releaseLease_live at_ free out mine (same.trans live) failed
      simp only [putConnection, returns]
      exact ⟨_, _, rfl, rfl, leased.release found at_ free out mine sound leases groups,
        owned.release found live leased.sound at_ sound groups away, closes.release found live, raised⟩

theorem Ledger.close (ledger : pool.Ledger [] []) {id : Nat} (away : id ∉ pool.idle) (failed : Bool) :
    (pool.close id failed).Ledger [] [] := by
  obtain ⟨pool', handle, returns, -, after⟩ := ledger.closeLocked away failed
  simp only [UpstreamConnectionPool.close, returns]
  refine Ledger.goes ?_
  simpa [Call.due] using after

/-- The last idle connection is taken from the list. -/
theorem Owned.pop (owned : pool.Owned []) {id : Nat} (last : pool.idle.getLast? = some id) :
    Owned [id] { pool with idle := pool.idle.dropLast } := by
  have parts : pool.idle.dropLast ++ [id] = pool.idle := by
    obtain ⟨some_, is⟩ := List.getLast?_eq_some_iff.mp last
    rw [is, List.dropLast_concat]
  have moved : ([id] ++ pool.idle.dropLast).Perm pool.idle := List.perm_append_comm.trans (.of_eq parts)
  have all : ([id] ++ pool.idle.dropLast ++ pool.checkedOut).Perm ([] ++ pool.idle ++ pool.checkedOut) :=
    moved.append_right pool.checkedOut
  refine ⟨owned.admitted.trans all.length_eq.symm, all.nodup_iff.mpr owned.distinct,
    fun other => all.mem_iff.trans (owned.live other), fun other among =>
      owned.opened other (moved.mem_iff.mp among), ?_⟩
  have bounded := owned.bounded
  simp only [List.length_dropLast]
  exact (Nat.sub_le _ _).trans bounded

/-- A user gets it. -/
theorem Owned.check_out {id : Nat} (owned : pool.Owned [id]) :
    Owned [] { pool with checkedOut := pool.checkedOut ++ [id] } := by
  have moved : ([] ++ pool.idle ++ (pool.checkedOut ++ [id])).Perm
      ([id] ++ pool.idle ++ pool.checkedOut) := by
    rw [List.nil_append, ← List.append_assoc]
    exact List.perm_append_comm.trans (.of_eq (List.append_assoc _ _ _).symm)
  refine ⟨owned.admitted.trans moved.length_eq.symm, moved.nodup_iff.mpr owned.distinct,
    fun other => moved.mem_iff.trans (owned.live other), fun other among => owned.opened other ?_,
    owned.bounded⟩
  exact List.mem_append_right _ among

theorem maxIdle_settings {world world' : Upstreams} (same : world'.settings = world.settings) (id : Nat) :
    (world'.groups[id]?.map fun group => group.maxIdle) = world.groups[id]?.map fun group =>
    group.maxIdle := by
  have at_ (world : Upstreams) : (world.groups[id]?.map fun group => group.maxIdle) =
      world.settings[id]?.map fun setting => setting.2.2 := by
    rw [settings, List.getElem?_map, Option.map_map]
    rfl
  rw [at_, at_, same]

/-- A new connection has a new lease and no handle. -/
theorem Ledger.reserve_new (ledger : pool.Ledger [] due) (nowMs : Int) {world : Upstreams}
    (sound : world.Sound)
    (free : world.unlocked pool.group = true) (settings : world.settings = pool.world.settings)
    {place : Nat}
    (more : world.leases = pool.world.leases ++ [{ group := pool.group, endpoint := place }]) :
    Ledger [] due { pool with
      world
      connections := pool.connections ++
        [{ handle := -1, lease := pool.world.leases.length, lastUsedMs := nowMs }]
      checkedOut := pool.checkedOut ++ [pool.connections.length] } := by
  obtain ⟨leased, owned, closes, raised⟩ := ledger
  have limits := maxIdle_settings settings pool.group
  obtain ⟨group, at_⟩ := leased.exists_
  obtain ⟨group', at'⟩ : ∃ group, world.groups[pool.group]? = some group := by
    rw [at_, Option.map_some, Option.map_eq_some_iff] at limits
    obtain ⟨group', is, -⟩ := limits
    exact ⟨group', is⟩
  have inRange {id : Nat} {connection : PooledUpstreamConnection}
    (found : pool.connections[id]? = some connection) :
      connection.lease < pool.world.leases.length := by
    obtain ⟨held, out, -⟩ := leased.lease id connection found
    exact (List.getElem?_eq_some_iff.mp out).1
  have fresh : pool.connections.length ∉ [] ++ pool.idle ++ pool.checkedOut := by
    intro member
    obtain ⟨_, is, -⟩ := (owned.live _).mp member
    exact Nat.lt_irrefl _ (List.getElem?_eq_some_iff.mp is).1
  have moved : ([] ++ pool.idle ++ (pool.checkedOut ++ [pool.connections.length])) =
      ([] ++ pool.idle ++ pool.checkedOut) ++ [pool.connections.length] := (List.append_assoc _ _ _).symm
  refine ⟨⟨sound, free, ⟨group', at'⟩, fun id connection found => ?_,
    fun one other first second is1 is2 same => ?_⟩, ⟨?_, ?_, fun id => ?_, fun id among => ?_, ?_⟩,
    ⟨closes.passed, fun id handle => ?_, closes.refuses, closes.once, fun entry => ?_⟩, raised⟩
  · simp only [more]
    rcases Counting.concat_at.mp found with old | ⟨-, rfl⟩
    · rw [List.getElem?_append_left (inRange old)]
      exact leased.lease id connection old
    · exact ⟨_, List.getElem?_concat_length, rfl, rfl⟩
  · rcases Counting.concat_at.mp is1 with old1 | ⟨rfl, rfl⟩
    · rcases Counting.concat_at.mp is2 with old2 | ⟨rfl, rfl⟩
      · exact leased.separate one other first second old1 old2 same
      · exact absurd same (inRange old1).ne
    · rcases Counting.concat_at.mp is2 with old2 | ⟨rfl, rfl⟩
      · exact absurd same.symm (inRange old2).ne
      · rfl
  · have admitted := owned.admitted
    simp only [outstanding] at admitted ⊢
    rw [moved, more, List.countP_append, admitted]
    simp [Nat.add_assoc]
  · simp only
    rw [moved, List.nodup_append]
    refine ⟨owned.distinct, List.nodup_singleton _, fun id member other last => ?_⟩
    rw [List.mem_singleton.mp last]
    rintro rfl
    exact fresh member
  · simp only
    rw [moved, List.mem_append, owned.live, List.mem_singleton]
    constructor
    · rintro (⟨connection, found, live⟩ | rfl)
      · exact ⟨connection, Counting.concat_at.mpr (.inl found), live⟩
      · exact ⟨_, Counting.concat_at.mpr (.inr ⟨rfl, rfl⟩), rfl⟩
    · rintro ⟨connection, found, live⟩
      rcases Counting.concat_at.mp found with old | ⟨rfl, -⟩
      · exact .inl ⟨connection, old, live⟩
      · exact .inr rfl
  · obtain ⟨connection, found, positive⟩ := owned.opened id among
    exact ⟨connection, Counting.concat_at.mpr (.inl found), positive⟩
  · have same : maxIdle { pool with world } = pool.maxIdle := by simp only [maxIdle, limits]
    exact same ▸ owned.bounded
  · rw [closes.takes]
    refine and_congr_right fun positive => ?_
    constructor
    · rintro ⟨connection, found, is⟩
      exact ⟨connection, Counting.concat_at.mpr (.inl found), is⟩
    · rintro ⟨connection, found, is⟩
      rcases Counting.concat_at.mp found with old | ⟨-, rfl⟩
      · exact ⟨connection, old, is⟩
      · subst is
        contradiction
  · refine (closes.dropped entry).trans (and_congr_right fun _ => ?_)
    cases entry.1 with
    | refused call => exact Iff.rfl
    | connection id =>
      constructor
      · rintro ⟨connection, found, released⟩
        exact ⟨connection, Counting.concat_at.mpr (.inl found), released⟩
      · rintro ⟨connection, found, released⟩
        rcases Counting.concat_at.mp found with old | ⟨-, rfl⟩
        · exact ⟨connection, old, released⟩
        · cases released

/-- A group that stays full changes no lease. -/
theorem Ledger.reserve_full (ledger : pool.Ledger loose due) {world : Upstreams} (sound : world.Sound)
    (free : world.unlocked pool.group = true) (settings : world.settings = pool.world.settings)
    (same : world.leases = pool.world.leases) : Ledger loose due { pool with world } := by
  obtain ⟨leased, owned, closes, raised⟩ := ledger
  have limits := maxIdle_settings settings pool.group
  obtain ⟨group, at_⟩ := leased.exists_
  rw [at_, Option.map_some, Option.map_eq_some_iff] at limits
  obtain ⟨group', at', maxIdle'⟩ := limits
  refine ⟨⟨sound, free, ⟨group', at'⟩, ?_, leased.separate⟩,
    ⟨?_, owned.distinct, owned.live, owned.opened, ?_⟩,
    ⟨closes.passed, closes.takes, closes.refuses, closes.once, closes.dropped⟩, raised⟩
  · simp only [same]
    exact leased.lease
  · have admitted := owned.admitted
    simp only [outstanding, same] at admitted ⊢
    exact admitted
  · have bounded := owned.bounded
    simp only [maxIdle, at_, at', Option.map_some, Option.getD_some, maxIdle'] at bounded ⊢
    exact bounded

/-- What a pass of `reserve` leaves. -/
theorem Ledger.reserveLocked (ledger : pool.Ledger [] []) (nowMs : Int) :
    ∃ pool' reserved, UpstreamConnectionPool.reserveLocked nowMs pool = (pool', .ok reserved) ∧
      match reserved with
      | .connection _ | .full => pool'.Ledger [] []
      | .expired id handle => pool'.Ledger [] (dueOf (.connection id) handle) := by
  obtain ⟨leased, owned, closes, raised⟩ := ledger
  unfold UpstreamConnectionPool.reserveLocked
  split
  · rename_i id last
    have popped : Ledger [id] [] { pool with idle := pool.idle.dropLast } :=
      ⟨⟨leased.sound, leased.free, leased.exists_, leased.lease, leased.separate⟩, owned.pop last,
        ⟨closes.passed, closes.takes, closes.refuses, closes.once, closes.dropped⟩, raised⟩
    have away : id ∉ pool.idle.dropLast := by
      have distinct := popped.owned.distinct
      simp only [List.cons_append, List.nil_append, List.nodup_cons, List.mem_append, not_or] at distinct
      exact distinct.1.1
    simp only
    split
    · rename_i missing
      obtain ⟨_, is, -⟩ := (owned.live id).mp (by simp [List.mem_of_getLast? last])
      rw [missing] at is
      cases is
    · split
      · obtain ⟨leased, owned, closes, raised⟩ := popped
        exact ⟨_, _, rfl, ⟨leased.sound, leased.free, leased.exists_, leased.lease, leased.separate⟩,
          owned.check_out,
          ⟨closes.passed, closes.takes, closes.refuses, closes.once, closes.dropped⟩, raised⟩
      · obtain ⟨pool', handle, returns, -, after⟩ := popped.closeLocked away false
        rw [returns]
        refine ⟨_, _, rfl, ?_⟩
        simpa using after
  · obtain ⟨sound, free, settings, ⟨refused, same⟩ | ⟨given, place, more⟩⟩ :=
      leased.sound.acquire_cases leased.free
    · generalize pool.world.acquire pool.group = result at *
      obtain ⟨world, lease⟩ := result
      subst refused
      exact ⟨_, _, rfl, Ledger.reserve_full ⟨leased, owned, closes, raised⟩ sound free settings same⟩
    · generalize pool.world.acquire pool.group = result at *
      obtain ⟨world, lease⟩ := result
      subst given
      exact ⟨_, _, rfl, Ledger.reserve_new ⟨leased, owned, closes, raised⟩ nowMs sound free settings more⟩

section Replace
variable {id : Nat} {connection next : PooledUpstreamConnection}
  (found : pool.connections[id]? = some connection)
include found

theorem Leased.replace (leased : pool.Leased) (lease : next.lease = connection.lease)
    (released : next.released = connection.released) : (pool.putConnection id next).Leased := by
  refine ⟨leased.sound, leased.free, leased.exists_, fun other theirs is => ?_,
    leased.separate_set found lease⟩
  simp only [putConnection, Counting.set_at found] at is
  split at is
  · cases is
    rw [lease, released]
    exact leased.lease id connection found
  · exact leased.lease other theirs is

theorem Owned.replace (owned : pool.Owned loose) (released : next.released = connection.released)
    (handle : 0 ≤ connection.handle → 0 ≤ next.handle) : (pool.putConnection id next).Owned loose := by
  refine ⟨owned.admitted, owned.distinct, fun other => ?_, fun other among => ?_, owned.bounded⟩
  · exact (owned.live other).trans (exists_set found (by rw [released]) other).symm
  · obtain ⟨theirs, is, positive⟩ := owned.opened other among
    simp only [putConnection, Counting.set_at found]
    split
    · rename_i same
      subst same
      rw [found] at is
      cases is
      exact ⟨next, rfl, handle positive⟩
    · exact ⟨theirs, is, positive⟩

theorem dropped_replace (released : next.released = connection.released) (owner : Owner) :
    (pool.putConnection id next).Dropped owner ↔ pool.Dropped owner := by
  cases owner with
  | refused call => exact Iff.rfl
  | connection other => exact exists_set found (by rw [released]) other

/-- A connection is used. -/
theorem Ledger.use (ledger : pool.Ledger loose due) (nowMs : Int) :
    (pool.putConnection id { connection with lastUsedMs := nowMs }).Ledger loose due := by
  obtain ⟨leased, owned, closes, raised⟩ := ledger
  refine ⟨leased.replace found rfl rfl, owned.replace found rfl fun positive => positive,
    ⟨closes.passed, fun other handle => ?_, closes.refuses, closes.once, fun entry => ?_⟩, raised⟩
  · refine (closes.takes other handle).trans (and_congr_right fun _ => (exists_set found ?_ other).symm)
    exact Iff.rfl
  · exact (closes.dropped entry).trans (and_congr_right fun _ =>
      (dropped_replace found (by rfl) entry.1).symm)

/-- A connection without a handle takes one. -/
theorem Ledger.take (ledger : pool.Ledger loose due) (live : connection.released = false)
    (none_ : connection.handle < 0) {handle : Int} (positive : 0 ≤ handle) :
    Ledger loose due { pool.putConnection id { connection with handle } with
      passed := pool.passed ++ [(.connection id, handle)] } := by
  obtain ⟨leased, owned, closes, raised⟩ := ledger
  have leased : (pool.putConnection id { connection with handle }).Leased := leased.replace found rfl rfl
  have owned : (pool.putConnection id { connection with handle }).Owned loose :=
    owned.replace found rfl fun _ => positive
  have untaken (other : Int) : (Owner.connection id, other) ∉ pool.passed := by
    rw [closes.takes, found]
    rintro ⟨taken, _, is, rfl⟩
    cases is
    omega
  refine ⟨⟨leased.sound, leased.free, leased.exists_, leased.lease, leased.separate⟩,
    ⟨owned.admitted, owned.distinct, owned.live, owned.opened, owned.bounded⟩,
    ⟨?_, fun other value => ?_, fun call value member => ?_, closes.once, fun entry => ?_⟩, raised⟩
  · refine List.nodup_append.mpr ⟨closes.passed, List.nodup_singleton _, fun entry member other last => ?_⟩
    rw [List.mem_singleton.mp last]
    rintro rfl
    exact untaken _ member
  · simp only [putConnection, List.mem_append, List.mem_singleton, Prod.mk.injEq, Owner.connection.injEq,
      Counting.set_at found, closes.takes]
    by_cases mine : id = other
    · subst mine
      simp only [if_pos, Option.some.injEq, exists_eq_left', true_and]
      constructor
      · rintro (⟨taken, _, is, rfl⟩ | rfl)
        · rw [found] at is
          cases is
          omega
        · exact ⟨positive, rfl⟩
      · rintro ⟨-, rfl⟩
        exact .inr rfl
    · simp [mine, Ne.symm mine]
  · simp only [List.mem_append, List.mem_singleton, Prod.mk.injEq, reduceCtorEq, false_and,
      or_false] at member
    simp only [List.length_append]
    exact Nat.lt_add_right _ (closes.refuses call value member)
  · have dropped : (pool.putConnection id { connection with handle }).Dropped entry.1 ↔
        pool.Dropped entry.1 :=
      dropped_replace found (by rfl) entry.1
    refine (closes.dropped entry).trans ?_
    simp only [List.mem_append, List.mem_singleton]
    constructor
    · rintro ⟨member, gone⟩
      exact ⟨.inl member, dropped.mpr gone⟩
    · rintro ⟨member | rfl, gone⟩
      · exact ⟨member, dropped.mp gone⟩
      · obtain ⟨_, is, released⟩ := dropped.mp gone
        rw [found] at is
        cases is
        rw [live] at released
        cases released

end Replace

/-- A handle that is refused is closed. -/
theorem Ledger.refuse (ledger : pool.Ledger loose due) {handle : Int} (positive : 0 ≤ handle) :
    Ledger loose (dueOf (.refused pool.passed.length) handle ++ due)
      { pool with passed := pool.passed ++ [(.refused pool.passed.length, handle)] } := by
  obtain ⟨leased, owned, closes, raised⟩ := ledger
  have fresh (value : Int) : (Owner.refused pool.passed.length, value) ∉ pool.passed := fun member =>
    Nat.lt_irrefl _ (closes.refuses _ _ member)
  have moved : (pool.closings ++ ([(Owner.refused pool.passed.length, handle)] ++ due)).Perm
      ((Owner.refused pool.passed.length, handle) :: (pool.closings ++ due)) := List.perm_middle
  rw [dueOf, if_pos positive]
  refine ⟨⟨leased.sound, leased.free, leased.exists_, leased.lease, leased.separate⟩,
    ⟨owned.admitted, owned.distinct, owned.live, owned.opened, owned.bounded⟩,
    ⟨?_, fun other value => ?_, fun call value member => ?_, ?_, fun entry => ?_⟩, raised⟩
  · refine List.nodup_append.mpr ⟨closes.passed, List.nodup_singleton _, fun entry member other last => ?_⟩
    rw [List.mem_singleton.mp last]
    rintro rfl
    exact fresh _ member
  · simp only [List.mem_append, List.mem_singleton, Prod.mk.injEq, reduceCtorEq, false_and, or_false]
    exact closes.takes other value
  · simp only [List.mem_append, List.mem_singleton, Prod.mk.injEq, Owner.refused.injEq] at member
    simp only [List.length_append, List.length_singleton]
    rcases member with old | ⟨rfl, -⟩
    · exact Nat.lt_succ_of_lt (closes.refuses call value old)
    · exact Nat.lt_succ_self _
  · refine moved.nodup_iff.mpr (List.nodup_cons.mpr ⟨fun member => ?_, closes.once⟩)
    exact fresh _ ((closes.dropped _).mp member).1
  · refine moved.mem_iff.trans ?_
    rw [List.mem_cons, closes.dropped, List.mem_append, List.mem_singleton]
    constructor
    · rintro (rfl | ⟨member, gone⟩)
      · exact ⟨.inr rfl, trivial⟩
      · refine ⟨.inl member, ?_⟩
        cases entry with
        | mk owner value => cases owner <;> exact gone
    · rintro ⟨member | rfl, gone⟩
      · refine .inr ⟨member, ?_⟩
        cases entry with
        | mk owner value => cases owner <;> exact gone
      · exact .inl rfl

theorem Ledger.opened (ledger : pool.Ledger [] []) {id : Nat} {handle : Int}
    (away : handle < 0 → id ∉ pool.idle) :
    (pool.opened id handle).Ledger [] [] := by
  unfold UpstreamConnectionPool.opened
  split
  · rename_i failed
    exact ledger.close (away failed) true
  · rename_i positive
    split
    · exact ledger
    · rename_i connection found
      split
      · refine Ledger.goes ?_
        simpa [Call.due] using ledger.refuse (Int.not_lt.mp positive)
      · rename_i openable
        simp only [not_or, Bool.not_eq_true, Int.not_le] at openable
        exact ledger.take found openable.1 openable.2 (Int.not_lt.mp positive)

/-- A connection goes back to the idle list. -/
theorem Owned.check_in (owned : pool.Owned []) {id : Nat} {connection : PooledUpstreamConnection}
    (found : pool.connections[id]? = some connection) (live : connection.released = false)
    (positive : 0 ≤ connection.handle)
    (room : pool.idle.length < pool.maxIdle) (away : id ∉ pool.idle) :
    Owned [] { pool with idle := pool.idle ++ [id], checkedOut := pool.checkedOut.erase id } := by
  have member : id ∈ pool.checkedOut := by
    have among := (owned.live id).mpr ⟨connection, found, live⟩
    simpa [away] using among
  have moved : ([] ++ (pool.idle ++ [id]) ++ pool.checkedOut.erase id).Perm
      ([] ++ pool.idle ++ pool.checkedOut) := by
    rw [List.nil_append, List.nil_append, List.append_assoc]
    exact (List.perm_cons_erase member).symm.append_left pool.idle
  refine ⟨owned.admitted.trans moved.length_eq.symm, moved.nodup_iff.mpr owned.distinct,
    fun other => moved.mem_iff.trans (owned.live other), fun other among => ?_, ?_⟩
  · simp only [List.nil_append, List.mem_append, List.mem_singleton] at among
    rcases among with old | rfl
    · exact owned.opened other old
    · exact ⟨connection, found, positive⟩
  · simp only [List.length_append, List.length_singleton]
    exact room

/-- What `release` of a connection that is not idle leaves. -/
theorem Ledger.releaseLocked (ledger : pool.Ledger [] []) {id : Nat} (away : id ∉ pool.idle)
    (nowMs : Int) (reusable : Bool) :
    (∃ pool', UpstreamConnectionPool.releaseLocked id nowMs reusable pool = (pool', .ok none) ∧
      pool'.Ledger [] []) ∨
    (∃ pool' handle, UpstreamConnectionPool.releaseLocked id nowMs reusable pool =
      (pool', .ok (some handle)) ∧ pool'.Ledger [] (dueOf (.connection id) handle)) ∨
    UpstreamConnectionPool.releaseLocked id nowMs reusable pool =
      (pool, .error (.runtime "upstream connection released more than once")) := by
  cases found : pool.connections[id]? with
  | none => exact .inl ⟨pool, by simp only [UpstreamConnectionPool.releaseLocked, found], ledger⟩
  | some connection =>
    cases live : connection.released with
    | true => exact .inr (.inr (by simp only [UpstreamConnectionPool.releaseLocked, found, live, if_true]))
    | false =>
      have used := ledger.use found nowMs
      simp only [UpstreamConnectionPool.releaseLocked, found, live, Bool.false_eq_true, if_false]
      by_cases kept : 0 ≤ connection.handle ∧ reusable = true ∧ pool.idle.length < pool.maxIdle
      · have same : (pool.putConnection id { connection with lastUsedMs := nowMs }).connections[id]? =
            some { connection with lastUsedMs := nowMs } := by
          simp only [putConnection, Counting.set_at found, if_pos]
        have back := used.owned.check_in same live kept.1 kept.2.2 away
        obtain ⟨leased, -, closes, raised⟩ := used
        refine .inl ⟨_, if_pos kept, ?_⟩
        rw [live] at leased closes back
        exact ⟨⟨leased.sound, leased.free, leased.exists_, leased.lease, leased.separate⟩, back,
          ⟨closes.passed, closes.takes, closes.refuses, closes.once, closes.dropped⟩, raised⟩
      · obtain ⟨pool', handle, returns, -, after⟩ := used.closeLocked away (!reusable)
        rw [live] at returns
        refine .inr (.inl ⟨pool', handle, (if_neg kept).trans ?_, ?_⟩)
        · rw [returns]
        · simpa using after

/-- `close_idle` closes every connection that it took from the list. -/
theorem Ledger.closeEach (ledger : pool.Ledger loose due) (empty : pool.idle = []) :
    ∃ pool' handles, UpstreamConnectionPool.closeEach loose pool = (pool', .ok handles) ∧
      pool'.Ledger [] ((Call.sweeping handles).due ++ due) := by
  induction loose generalizing pool due with
  | nil => exact ⟨pool, [], rfl, ledger⟩
  | cons id rest ih =>
    obtain ⟨connection, found, live⟩ := (ledger.owned.live id).mp (by simp)
    have away : id ∉ pool.idle := by simp [empty]
    obtain ⟨next, handle, closes, idle, after⟩ := ledger.closeLocked away false
    rw [List.erase_cons_head] at after
    obtain ⟨pool', handles, returns, last⟩ := ih after (idle.trans empty)
    refine ⟨pool', (id, handle) :: handles, ?_, ?_⟩
    · simp only [UpstreamConnectionPool.closeEach, Method.bind_run, Method.get_run, found,
        Option.all_some, live, Bool.false_eq_true, if_false, closes, returns, Method.pure_run]
    · refine last.reorder ?_
      simp only [Call.due, List.flatMap_cons, List.append_assoc]
      exact List.perm_append_comm_assoc _ _ _

end Ledger
end UpstreamConnectionPool
end Upstreams
end PccGateway
