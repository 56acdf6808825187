import Mathlib.Data.List.Rotate
import PccGateway.Errors
import PccGateway.Lib.Counting
import PccGateway.Lib.Interleaving
import PccGateway.Lib.Method

namespace PccGateway
namespace Upstreams

/-- An endpoint with the leases on it, over all groups that list it. -/
structure UpstreamEndpoint where
  weight : Nat
  active : Int := 0
  failures : Nat := 0
  positive : 0 < weight

namespace UpstreamEndpoint

/-- `try_acquire`: the endpoint with one lease more, if it does not refuse. -/
def tryAcquire (groupActive : Int) (endpoint : UpstreamEndpoint) : Option UpstreamEndpoint :=
  if groupActive + endpoint.weight < endpoint.active then
    none else some { endpoint with active := endpoint.active + 1 }

def release (failed : Bool) (endpoint : UpstreamEndpoint) : Except Exn UpstreamEndpoint :=
  if endpoint.active ≤ 0 then .error (.runtime "upstream endpoint admission underflow")
  else .ok { endpoint with
    active := endpoint.active - 1, failures := if failed then endpoint.failures + 1 else endpoint.failures }

end UpstreamEndpoint

/-- Group and endpoint are named by their places. -/
structure UpstreamLease where
  group : Nat
  endpoint : Nat
  released : Bool := false
  deriving DecidableEq

/-- A group, with the endpoints it lists by their places. While a thread is in `acquire` it has the
group's lock, and `tried` counts the endpoints that have refused it. What the calls of `acquire`
returned is recorded, with the leases that were out when they took the lock and the place of the
endpoint that was chosen. -/
structure UpstreamGroup where
  endpoints : List Nat
  maxActive : Nat
  maxIdle : Nat
  active : Int := 0
  cursor : Nat := 0
  tried : Option Nat := none
  returns : List (Int × Option Nat) := []
  some_ : endpoints ≠ []
  admits : 0 < maxActive

/-- `acquire` returns. -/
def UpstreamGroup.returned (result : Option Nat) (group : UpstreamGroup) : UpstreamGroup :=
  { group with tried := none, returns := group.returns ++ [(group.active, result)] }

end Upstreams

/-- Groups that may share endpoints, every lease there has been, and the exceptions of `release_lease`. -/
structure Upstreams where
  endpoints : List Upstreams.UpstreamEndpoint
  groups : List Upstreams.UpstreamGroup
  leases : List Upstreams.UpstreamLease := []
  errors : List Exn := []

namespace Upstreams

inductive Action where
  /-- `acquire` takes the lock. -/
  | acquire (group : Nat)
  /-- It asks the next endpoint. -/
  | attempt (group : Nat)
  | release (group lease : Nat) (failed : Bool)

def Action.group : Action → Nat
  | .acquire group | .attempt group | .release group _ _ => group

def putGroup (id : Nat) (group : UpstreamGroup) (world : Upstreams) : Upstreams :=
  { world with groups := world.groups.set id group }

/-- `acquire` with the lock, up to its loop. -/
def enter (id : Nat) (world : Upstreams) : Upstreams :=
  match world.groups[id]? with
  | none => world
  | some group =>
    if group.tried ≠ none then world
    else if group.maxActive ≤ group.active then world.putGroup id (group.returned none)
    else world.putGroup id { group with tried := some 0 }

/-- A pass of its loop. -/
def attempt (id : Nat) (world : Upstreams) : Upstreams :=
  match world.groups[id]? with
  | none => world
  | some group =>
    match group.tried, group.endpoints[group.cursor]? with
    | some tried, some place =>
      match world.endpoints[place]? with
      | none => world
      | some endpoint =>
        let next := { group with cursor := (group.cursor + 1) % group.endpoints.length }
        match endpoint.tryAcquire group.active with
        | some taken =>
          { world.putGroup id { next.returned (some group.cursor) with active := group.active + 1 } with
            endpoints := world.endpoints.set place taken
            leases := world.leases ++ [{ group := id, endpoint := place }] }
        | none =>
          if tried + 1 < group.endpoints.length then
            world.putGroup id { next with tried := some (tried + 1) }
          else world.putGroup id (next.returned none)
    | _, _ => world

/-- `release_lease`, with the lock. -/
def releaseLease (id lease : Nat) (failed : Bool) : Method Upstreams Exn Unit := fun world =>
  match world.groups[id]?, world.leases[lease]? with
  | some group, some held =>
    if held.group ≠ id ∨ held.released = true then
      (world, .error (.runtime "upstream lease released more than once"))
    else
      let world := { world with leases := world.leases.set lease { held with released := true } }
      match world.endpoints[held.endpoint]? with
      | none => (world, .ok ())
      | some endpoint =>
        match endpoint.release failed with
        | .error error => (world, .error error)
        | .ok given =>
          ({ world.putGroup id { group with active := group.active - 1 } with
              endpoints := world.endpoints.set held.endpoint given }, .ok ())
  | _, _ => (world, .ok ())

/-- The group's lock is free. -/
def unlocked (id : Nat) (world : Upstreams) : Bool := world.groups[id]?.all fun group => group.tried.isNone

def step (world : Upstreams) : Action → Upstreams
  | .acquire group => world.enter group
  | .attempt group => world.attempt group
  | .release group lease failed =>
    if world.unlocked group then
      match world.releaseLease group lease failed with
      | (world, .ok ()) => world
      | (world, .error error) => { world with errors := world.errors ++ [error] }
    else world

/-- The leases of a group that are out. -/
def outstanding (group : Nat) (world : Upstreams) : Nat :=
  world.leases.countP fun lease => decide (lease.group = group ∧ lease.released = false)

/-- The leases on an endpoint that are out, over all groups. -/
def outstandingOn (endpoint : Nat) (world : Upstreams) : Nat :=
  world.leases.countP fun lease => decide (lease.endpoint = endpoint ∧ lease.released = false)

/-- Every counter counts leases that are out. -/
structure Sound (world : Upstreams) : Prop where
  listed : ∀ (id : Nat) (group : UpstreamGroup), world.groups[id]? = some group →
    group.cursor < group.endpoints.length ∧ ∀ place ∈ group.endpoints, place < world.endpoints.length
  admitted : ∀ (id : Nat) (group : UpstreamGroup), world.groups[id]? = some group →
    group.active = world.outstanding id
  bounded : ∀ (id : Nat) (group : UpstreamGroup), world.groups[id]? = some group →
    group.active ≤ group.maxActive ∧ (group.tried ≠ none → group.active < group.maxActive)
  counted : ∀ (place : Nat) (endpoint : UpstreamEndpoint), world.endpoints[place]? = some endpoint →
    endpoint.active = world.outstandingOn place
  leased : ∀ lease ∈ world.leases, ∃ group : UpstreamGroup, world.groups[lease.group]? = some group ∧
    lease.endpoint ∈ group.endpoints
  errors : ∀ error ∈ world.errors, error = .runtime "upstream lease released more than once"

section Sound
variable {world : Upstreams} {id place : Nat} {group : UpstreamGroup} {endpoint : UpstreamEndpoint}

/-- Every fact about all groups holds after one was replaced. -/
theorem forall_set {groups : List UpstreamGroup} (found : groups[id]? = some group) {next : UpstreamGroup}
    {P Q : Nat → UpstreamGroup → Prop}
    (all : ∀ other found, groups[other]? = some found → P other found) (new : Q id next)
    (old : ∀ other found, other ≠ id → P other found → Q other found) :
    ∀ other found, (groups.set id next)[other]? = some found → Q other found := by
  intro other replaced is
  rw [Counting.set_at found] at is
  split at is
  · rename_i same
    subst same
    cases is
    exact new
  · rename_i differs
    exact old other replaced (Ne.symm differs) (all other replaced is)

/-- The leases of a replaced group still belong to it. -/
theorem leased_set (found : world.groups[id]? = some group) {next : UpstreamGroup}
    (same : next.endpoints = group.endpoints)
    {lease : UpstreamLease} (leased : ∃ group : UpstreamGroup, world.groups[lease.group]? =
      some group ∧ lease.endpoint ∈ group.endpoints) :
    ∃ group : UpstreamGroup,
      (world.groups.set id next)[lease.group]? = some group ∧ lease.endpoint ∈ group.endpoints := by
  obtain ⟨owner, is, among⟩ := leased
  by_cases mine : id = lease.group
  · subst mine
    rw [found] at is
    cases is
    exact ⟨next, by rw [Counting.set_at found, if_pos rfl], same ▸ among⟩
  · exact ⟨owner, by rw [Counting.set_at found, if_neg mine, is], among⟩

/-- A step that changes no count. -/
theorem Sound.put (sound : world.Sound) (found : world.groups[id]? = some group) {next : UpstreamGroup}
    (same : (next.endpoints, next.maxActive, next.active) =
      (group.endpoints, group.maxActive, group.active))
    (cursor : next.cursor < next.endpoints.length)
    (tried : next.tried ≠ none → next.active < next.maxActive) :
    (world.putGroup id next).Sound := by
  simp only [Prod.mk.injEq] at same
  obtain ⟨endpoints, maxActive, active⟩ := same
  refine ⟨?_, ?_, ?_, sound.counted, ?_, sound.errors⟩
  · refine forall_set found sound.listed ⟨cursor, ?_⟩ fun _ _ _ holds => holds
    rw [endpoints]
    exact (sound.listed id group found).2
  · refine forall_set found sound.admitted ?_ fun _ _ _ holds => holds
    exact active.trans (sound.admitted id group found)
  · refine forall_set found sound.bounded ⟨?_, tried⟩ fun _ _ _ holds => holds
    rw [active, maxActive]
    exact (sound.bounded id group found).1
  · exact fun lease member => leased_set found endpoints (sound.leased lease member)

theorem Sound.enter (sound : world.Sound) (id : Nat) : (world.enter id).Sound := by
  unfold Upstreams.enter
  split
  · exact sound
  · rename_i group found
    have cursor := (sound.listed id group found).1
    split
    · exact sound
    · split
      · exact sound.put found rfl cursor nofun
      · rename_i room
        exact sound.put found rfl cursor fun _ => Int.not_le.mp room

theorem Sound.take (sound : world.Sound) (found : world.groups[id]? = some group)
    (at_ : world.endpoints[place]? = some endpoint) (among : place ∈ group.endpoints)
    (room : group.active < group.maxActive) {next : UpstreamGroup} {taken : UpstreamEndpoint}
    (same : (next.endpoints, next.maxActive, next.active, next.tried) =
      (group.endpoints, group.maxActive, group.active + 1, none))
    (cursor : next.cursor < next.endpoints.length) (more : taken.active = endpoint.active + 1) :
    Sound { world.putGroup id next with
      endpoints := world.endpoints.set place taken
      leases := world.leases ++ [{ group := id, endpoint := place }] } := by
  simp only [Prod.mk.injEq] at same
  obtain ⟨endpoints, maxActive, active, tried⟩ := same
  have ofGroup (other : Nat) : outstanding other { world.putGroup id next with
      endpoints := world.endpoints.set place taken
      leases := world.leases ++ [{ group := id, endpoint := place }] } =
      world.outstanding other + if other = id then 1 else 0 := by
    simp only [outstanding, List.countP_append, List.countP_singleton]
    by_cases same : id = other
    · simp [same]
    · simp [same, Ne.symm same]
  have onEndpoint (other : Nat) : outstandingOn other { world.putGroup id next with
      endpoints := world.endpoints.set place taken
      leases := world.leases ++ [{ group := id, endpoint := place }] } =
      world.outstandingOn other + if other = place then 1 else 0 := by
    simp only [outstandingOn, List.countP_append, List.countP_singleton]
    by_cases same : place = other
    · simp [same]
    · simp [same, Ne.symm same]
  refine ⟨?_, ?_, ?_, ?_, ?_, sound.errors⟩
  · simp only [List.length_set]
    refine forall_set found sound.listed ⟨cursor, ?_⟩ fun _ _ _ holds => holds
    rw [endpoints]
    exact (sound.listed id group found).2
  · simp only [ofGroup]
    refine forall_set found sound.admitted ?_ fun other _ differs holds => ?_
    · have before := sound.admitted id group found
      simp only [active, before]
      simp
    · simpa [differs] using holds
  · refine forall_set found sound.bounded ?_ fun _ _ _ holds => holds
    rw [active, maxActive]
    exact ⟨by omega, fun held => absurd tried held⟩
  · intro other replaced is
    have inRange := (List.getElem?_eq_some_iff.mp at_).1
    rw [onEndpoint]
    simp only [List.getElem?_set, inRange] at is
    split at is
    · rename_i mine
      subst mine
      cases is
      have before := sound.counted place endpoint at_
      simp [more, before]
    · rename_i differs
      have before := sound.counted other replaced is
      simpa [Ne.symm differs] using before
  · intro lease member
    rcases List.mem_append.mp member with old | new
    · exact leased_set found endpoints (sound.leased lease old)
    · rw [List.mem_singleton] at new
      subst new
      exact ⟨next, by simp only [putGroup]; rw [Counting.set_at found, if_pos rfl], endpoints ▸ among⟩

theorem Sound.attempt (sound : world.Sound) (id : Nat) : (world.attempt id).Sound := by
  unfold Upstreams.attempt
  split
  · exact sound
  · rename_i group found
    have cursor : (group.cursor + 1) % group.endpoints.length < group.endpoints.length :=
      Nat.mod_lt _ (List.length_pos_iff.mpr group.some_)
    split
    · rename_i tried place holding place_eq
      have room := (sound.bounded id group found).2 (by rw [holding]; simp)
      split
      · exact sound
      · rename_i endpoint at_
        simp only
        split
        · rename_i taken acquired
          have more : taken.active = endpoint.active + 1 := by
            unfold UpstreamEndpoint.tryAcquire at acquired
            split at acquired
            · cases acquired
            · cases acquired
              rfl
          exact sound.take found at_ (List.mem_of_getElem? place_eq) room rfl cursor more
        · split
          · exact sound.put found rfl cursor fun _ => room
          · exact sound.put found rfl cursor nofun
    · exact sound

/-- A lease that is out goes back. -/
theorem Sound.give (sound : world.Sound) (found : world.groups[id]? = some group) {lease : Nat}
    {held : UpstreamLease}
    (out : world.leases[lease]? = some held) (mine : held.group = id) (live : held.released = false)
    (at_ : world.endpoints[held.endpoint]? = some endpoint) {given : UpstreamEndpoint}
    (less : given.active = endpoint.active - 1) (free : group.tried = none) : Sound { world with
      groups := world.groups.set id { group with active := group.active - 1 }
      endpoints := world.endpoints.set held.endpoint given
      leases := world.leases.set lease { held with released := true } } := by
  have ofGroup (other : Nat) : (world.leases.set lease { held with released := true }).countP
      (fun lease => decide (lease.group = other ∧ lease.released = false)) + (if other = id then 1 else 0) =
      world.outstanding other := by
    by_cases same : other = id
    · rw [if_pos same]
      exact Counting.countP_set_off out (by simp [mine, live, same]) (by simp)
    · rw [if_neg same]
      exact Counting.countP_set_same out (by simp [mine, Ne.symm same])
  have onEndpoint (other : Nat) : (world.leases.set lease { held with released := true }).countP
      (fun lease => decide (lease.endpoint = other ∧ lease.released = false)) +
        (if other = held.endpoint then 1 else 0) = world.outstandingOn other := by
    by_cases same : other = held.endpoint
    · rw [if_pos same]
      exact Counting.countP_set_off out (by simp [live, same]) (by simp)
    · rw [if_neg same]
      exact Counting.countP_set_same out (by simp [Ne.symm same])
  refine ⟨?_, ?_, ?_, ?_, ?_, sound.errors⟩
  · simp only [List.length_set]
    exact forall_set found sound.listed (sound.listed id group found) fun _ _ _ holds => holds
  · refine forall_set found sound.admitted ?_ fun other _ differs holds => ?_
    · have before := sound.admitted id group found
      have after := ofGroup id
      rw [if_pos rfl] at after
      simp only [outstanding] at before after ⊢
      omega
    · have after := ofGroup other
      rw [if_neg differs] at after
      simp only [outstanding] at holds after ⊢
      omega
  · refine forall_set found sound.bounded ⟨?_, fun held => absurd free held⟩ fun _ _ _ holds => holds
    have before := (sound.bounded id group found).1
    simp only
    omega
  · intro other replaced is_
    have inside := (List.getElem?_eq_some_iff.mp at_).1
    have after := onEndpoint other
    simp only [List.getElem?_set, inside] at is_
    simp only [outstandingOn] at after ⊢
    split at is_
    · rename_i same
      subst same
      cases is_
      have before := sound.counted held.endpoint endpoint at_
      rw [if_pos rfl] at after
      simp only [outstandingOn] at before
      omega
    · rename_i differs
      have before := sound.counted other replaced is_
      rw [if_neg (Ne.symm differs)] at after
      simp only [outstandingOn] at before
      omega
  · intro other member
    have old : ∃ group : UpstreamGroup,
        world.groups[other.group]? = some group ∧ other.endpoint ∈ group.endpoints := by
      rcases List.mem_or_eq_of_mem_set member with among | rfl
      · exact sound.leased other among
      · exact sound.leased held (List.mem_of_getElem? out)
    exact @leased_set world id group found { group with active := group.active - 1 } rfl other old

/-- A lease that is out is released, when the lock of its group is free. -/
theorem Sound.releaseLease_live (sound : world.Sound) (found : world.groups[id]? = some group)
    (free : group.tried = none)
    {lease : Nat} {held : UpstreamLease} (out : world.leases[lease]? = some held) (mine : held.group = id)
    (live : held.released = false) (failed : Bool) :
    ∃ world', world.releaseLease id lease failed = (world', .ok ()) ∧ world'.Sound ∧
      world'.leases = world.leases.set lease { held with released := true } ∧
      world'.groups = world.groups.set id { group with active := group.active - 1 } := by
  -- its endpoint exists, and counts at least this lease
  obtain ⟨owner, isOwner, among⟩ := sound.leased held (List.mem_of_getElem? out)
  obtain ⟨endpoint, at_⟩ : ∃ endpoint, world.endpoints[held.endpoint]? = some endpoint :=
    ⟨_, List.getElem?_eq_getElem ((sound.listed held.group owner isOwner).2 held.endpoint among)⟩
  have counted := sound.counted held.endpoint endpoint at_
  have positive : 0 < world.outstandingOn held.endpoint :=
    List.countP_pos_iff.mpr ⟨held, List.mem_of_getElem? out, by simp [live]⟩
  have given : endpoint.release failed = .ok { endpoint with
      active := endpoint.active - 1, failures := if failed then endpoint.failures + 1
        else endpoint.failures } :=
    if_neg (by omega)
  have valid : ¬ (held.group ≠ id ∨ held.released = true) := by simp [mine, live]
  simp only [Upstreams.releaseLease, found, out, if_neg valid, at_, given]
  exact ⟨_, rfl, sound.give found out mine live at_ rfl free, rfl, rfl⟩

theorem Sound.step (sound : world.Sound) (action : Action) : (world.step action).Sound := by
  cases action with
  | acquire group => exact sound.enter group
  | attempt group => exact sound.attempt group
  | release id lease failed =>
    simp only [Upstreams.step]
    split
    · rename_i free
      cases found : world.groups[id]? with
      | none =>
        simp only [Upstreams.releaseLease, found]
        exact sound
      | some group =>
        cases out : world.leases[lease]? with
        | none =>
          simp only [Upstreams.releaseLease, found, out]
          exact sound
        | some held =>
          by_cases invalid : held.group ≠ id ∨ held.released = true
          · simp only [Upstreams.releaseLease, found, out, if_pos invalid]
            refine ⟨sound.listed, sound.admitted, sound.bounded, sound.counted, sound.leased, ?_⟩
            exact List.forall_mem_append.mpr ⟨sound.errors, by simp⟩
          · simp only [not_or, not_not, Bool.not_eq_true] at invalid
            have unlocked : group.tried = none := by simpa [unlocked, found] using free
            obtain ⟨world', returns, after, -⟩ :=
              sound.releaseLease_live found unlocked out invalid.1 invalid.2 failed
            rw [returns]
            exact after
    · exact sound

end Sound

/-- What stays the same in every group. -/
def settings (world : Upstreams) : List (List Nat × Nat × Nat) :=
  world.groups.map fun group => (group.endpoints, group.maxActive, group.maxIdle)

section Fairness
variable {world : Upstreams} {id : Nat} {group : UpstreamGroup}

theorem settings_set (found : world.groups[id]? = some group) {next : UpstreamGroup}
    (same : (next.endpoints, next.maxActive, next.maxIdle) =
      (group.endpoints, group.maxActive, group.maxIdle)) :
    (world.groups.set id next).map (fun group => (group.endpoints, group.maxActive, group.maxIdle)) =
    world.settings := by
  have at_ : world.settings[id]? = some (next.endpoints, next.maxActive, next.maxIdle) := by
    rw [settings, List.getElem?_map, found, same]
    rfl
  obtain ⟨inRange, is⟩ := List.getElem?_eq_some_iff.mp at_
  rw [List.map_set, ← is]
  exact List.set_getElem_self inRange

theorem releaseLease_groups (world : Upstreams) (id lease : Nat) (failed : Bool) :
    (world.step (.release id lease failed)).groups = world.groups ∨
      ∃ group : UpstreamGroup, world.groups[id]? = some group ∧
        (world.step (.release id lease failed)).groups = world.groups.set id
        { group with active := group.active - 1 } := by
  have released : (world.releaseLease id lease failed).1.groups = world.groups ∨
      ∃ group : UpstreamGroup, world.groups[id]? = some group ∧
        (world.releaseLease id lease failed).1.groups = world.groups.set id
          { group with active := group.active - 1 } := by
    unfold releaseLease
    split
    · rename_i group held found out
      split
      · exact .inl rfl
      · simp only
        split
        · exact .inl rfl
        · split
          · exact .inl rfl
          · exact .inr ⟨group, found, rfl⟩
    · exact .inl rfl
  simp only [step]
  split
  · generalize world.releaseLease id lease failed = result at *
    obtain ⟨next, outcome⟩ := result
    cases outcome with
    | ok => exact released
    | error => exact released
  · exact .inl rfl

theorem step_settings (world : Upstreams) (action : Action) :
    (world.step action).settings = world.settings := by
  cases action with
  | acquire id =>
    simp only [step, enter]
    split
    · rfl
    · rename_i found
      split
      · rfl
      · split <;> exact settings_set found rfl
  | attempt id =>
    simp only [step, attempt]
    split
    · rfl
    · rename_i found
      split
      · split
        · rfl
        · split
          · exact settings_set found rfl
          · split <;> exact settings_set found rfl
      · rfl
  | release id lease failed =>
    rcases releaseLease_groups world id lease failed with same | ⟨group, found, less⟩
    · rw [settings, same, settings]
    · rw [settings, less]
      exact settings_set found rfl

theorem settings_run (world : Upstreams) (actions : List Action) :
    (actions.foldl step world).settings = world.settings :=
  @Interleaving.invariant _ _ step world (fun current => current.settings = world.settings)
    (fun current action same => (step_settings current action).trans same) actions rfl

/-- What a step does to a group whose endpoints do not refuse. -/
inductive Turn (group : UpstreamGroup) : UpstreamGroup → Prop
  | still : Turn group group
  | full (free : group.tried = none) (full : group.maxActive ≤ group.active) :
      Turn group (group.returned none)
  | entered (free : group.tried = none) (room : group.active < group.maxActive) :
      Turn group { group with tried := some 0 }
  | chose (room : group.active < group.maxActive) :
      Turn group { ({ group with cursor := (group.cursor + 1) % group.endpoints.length } :
        UpstreamGroup).returned
        (some group.cursor) with active := group.active + 1 }
  | gave : Turn group { group with active := group.active - 1 }

/-- No other group lists an endpoint of this one. -/
def Unshared (id : Nat) (settings : List (List Nat × Nat × Nat)) : Prop :=
  ∀ (other : Nat) (mine theirs : List Nat × Nat × Nat), other ≠ id → settings[id]? = some mine →
    settings[other]? = some theirs → ∀ place ∈ mine.1, place ∉ theirs.1

/-- All leases on an endpoint of such a group are its own, so that the endpoint never refuses. -/
theorem Sound.never_refuses (sound : world.Sound) (alone : Unshared id world.settings)
    (found : world.groups[id]? = some group) {place : Nat} (among : place ∈ group.endpoints)
    {endpoint : UpstreamEndpoint} (at_ : world.endpoints[place]? = some endpoint) :
    endpoint.tryAcquire group.active = some { endpoint with active := endpoint.active + 1 } := by
  have setting {other : Nat} {found : UpstreamGroup} (is : world.groups[other]? = some found) :
      world.settings[other]? = some (found.endpoints, found.maxActive, found.maxIdle) := by
    rw [settings, List.getElem?_map, is]
    rfl
  have own : world.outstandingOn place ≤ world.outstanding id := by
    refine List.countP_mono_left fun lease member on => ?_
    simp only [decide_eq_true_eq] at on ⊢
    obtain ⟨owner, isOwner, listed⟩ := sound.leased lease member
    refine ⟨by_contra fun differs => ?_, on.2⟩
    exact alone lease.group _ _ differs (setting found) (setting isOwner) place among (on.1 ▸ listed)
  have counted := sound.counted place endpoint at_
  have admitted := sound.admitted id group found
  have positive := endpoint.positive
  exact if_neg (by omega)

/-- A step on a group leaves the others. -/
theorem Turn.put (found : world.groups[id]? = some group) {other : Nat} {theirs next : UpstreamGroup}
    (at_ : world.groups[other]? = some theirs) (turn : other = id → Turn group next) :
    ∃ group', (world.groups.set other next)[id]? = some group' ∧ Turn group group' := by
  rw [Counting.set_at at_]
  split
  · rename_i same
    exact ⟨next, rfl, turn same⟩
  · exact ⟨group, found, .still⟩

theorem Sound.turn (sound : world.Sound) (alone : Unshared id world.settings)
    (found : world.groups[id]? = some group)
    (action : Action) : ∃ group', (world.step action).groups[id]? = some group' ∧ Turn group group' := by
  have still : ∃ group', world.groups[id]? = some group' ∧ Turn group group' := ⟨group, found, .still⟩
  cases action with
  | acquire other =>
    simp only [Upstreams.step, Upstreams.enter]
    split
    · exact still
    · rename_i theirs at_
      split
      · exact still
      · rename_i free
        have free : theirs.tried = none := by simpa using free
        split
        · rename_i full
          refine Turn.put found at_ fun same => ?_
          subst same
          rw [found] at at_
          cases at_
          exact .full free full
        · rename_i room
          refine Turn.put found at_ fun same => ?_
          subst same
          rw [found] at at_
          cases at_
          exact .entered free (Int.not_le.mp room)
  | attempt other =>
    simp only [Upstreams.step, Upstreams.attempt]
    split
    · exact still
    · rename_i theirs at_
      split
      · rename_i tried place holding place_eq
        split
        · exact still
        · rename_i endpoint here
          have mine (same : other = id) : theirs = group ∧ endpoint.tryAcquire theirs.active ≠ none := by
            subst same
            rw [found] at at_
            cases at_
            refine ⟨rfl, ?_⟩
            rw [sound.never_refuses alone found (List.mem_of_getElem? place_eq) here]
            simp
          split
          · refine Turn.put found at_ fun same => ?_
            obtain ⟨rfl, -⟩ := mine same
            exact .chose ((sound.bounded id theirs found).2 (by rw [holding]; simp))
          · rename_i refuses
            split
            · exact Turn.put found at_ fun same => absurd refuses (mine same).2
            · exact Turn.put found at_ fun same => absurd refuses (mine same).2
      · exact still
  | release other lease failed =>
    rcases releaseLease_groups world other lease failed with same | ⟨theirs, at_, less⟩
    · rw [same]
      exact still
    · rw [less]
      refine Turn.put found at_ fun same => ?_
      subst same
      rw [found] at at_
      cases at_
      exact .gave

/-- The places of the endpoints that were chosen, one call after another. -/
def chosen (group : UpstreamGroup) : List Nat := group.returns.filterMap Prod.snd

/-- A group chooses its endpoints in turn, and it refuses when it is full and only then. -/
structure Fair (group : UpstreamGroup) : Prop where
  refuses : ∀ result ∈ group.returns, result.2 = none ↔ result.1 = group.maxActive
  cyclic : chosen group = (List.range (chosen group).length).map (· % group.endpoints.length)
  cursor : group.cursor = (chosen group).length % group.endpoints.length

theorem Fair.turn (fair : Fair group) (bounded : group.active ≤ group.maxActive)
    {next : UpstreamGroup} (turn : Turn group next) :
    Fair next := by
  cases turn with
  | still => exact fair
  | full free full =>
    have same : chosen (group.returned none) = chosen group := by
      simp [chosen, UpstreamGroup.returned, List.filterMap_append]
    refine ⟨List.forall_mem_append.mpr ⟨fair.refuses, ?_⟩, ?_, ?_⟩
    · have full : group.active = group.maxActive := by omega
      simpa [UpstreamGroup.returned] using full
    · rw [same]
      exact fair.cyclic
    · rw [same]
      exact fair.cursor
  | entered free room => exact ⟨fair.refuses, fair.cyclic, fair.cursor⟩
  | chose room =>
    have more : chosen { ({ group with cursor := (group.cursor + 1) % group.endpoints.length } :
        UpstreamGroup).returned
        (some group.cursor) with active := group.active + 1 } = chosen group ++ [group.cursor] := by
      simp [chosen, UpstreamGroup.returned, List.filterMap_append]
    refine ⟨List.forall_mem_append.mpr ⟨fair.refuses, ?_⟩, ?_, ?_⟩
    · have room : group.active ≠ group.maxActive := by omega
      simpa [UpstreamGroup.returned] using room
    · rw [more, List.length_append, List.length_singleton, List.range_succ, List.map_append,
        List.map_singleton]
      simp only [UpstreamGroup.returned]
      rw [← fair.cursor, ← fair.cyclic]
    · rw [more, List.length_append, List.length_singleton]
      simp only [UpstreamGroup.returned]
      rw [fair.cursor, Nat.mod_add_mod]
  | gave => exact ⟨fair.refuses, fair.cyclic, fair.cursor⟩

/-- As many choices as there are endpoints choose each of them once. -/
theorem Fair.window (fair : Fair group) (start : Nat)
    (enough : start + group.endpoints.length ≤ (chosen group).length) :
    List.Perm (((chosen group).drop start).take group.endpoints.length)
      (List.range group.endpoints.length) := by
  have rotated : ((chosen group).drop start).take group.endpoints.length =
      (List.range group.endpoints.length).rotate start := by
    have length : (((chosen group).drop start).take group.endpoints.length).length =
        ((List.range group.endpoints.length).rotate start).length := by
      simp only [List.length_take, List.length_drop, List.length_rotate, List.length_range]
      omega
    refine List.ext_getElem length fun index here there => ?_
    rw [List.getElem_rotate, List.getElem_range, List.getElem_take, List.getElem_drop, List.length_range]
    have at_ : (chosen group)[start + index]? = some ((start + index) % group.endpoints.length) := by
      rw [fair.cyclic, List.getElem?_map, List.getElem?_range]
      · rfl
      · simp only [List.length_rotate, List.length_range] at there
        omega
    rw [(List.getElem?_eq_some_iff.mp at_).2, Nat.add_comm]
  rw [rotated]
  exact List.rotate_perm _ _

end Fairness

/-- Groups before the first call: the constructors have checked them, and every endpoint that is
listed exists. -/
structure Fresh (world : Upstreams) : Prop where
  listed : ∀ group ∈ world.groups, group.active = 0 ∧ group.cursor = 0 ∧ group.tried = none ∧
    group.returns = [] ∧ ∀ place ∈ group.endpoints, place < world.endpoints.length
  unused : ∀ endpoint ∈ world.endpoints, endpoint.active = 0
  leases : world.leases = []
  errors : world.errors = []

theorem Fresh.sound {world : Upstreams} (fresh : world.Fresh) : world.Sound := by
  refine ⟨fun id group found => ?_, fun id group found => ?_, fun id group found => ?_,
    fun place endpoint at_ => ?_,
    by simp [fresh.leases], by simp [fresh.errors]⟩
  · obtain ⟨-, cursor, -, -, listed⟩ := fresh.listed group (List.mem_of_getElem? found)
    exact ⟨by rw [cursor]; exact List.length_pos_iff.mpr group.some_, listed⟩
  · obtain ⟨active, -⟩ := fresh.listed group (List.mem_of_getElem? found)
    simp [active, outstanding, fresh.leases]
  · obtain ⟨active, -, tried, -⟩ := fresh.listed group (List.mem_of_getElem? found)
    rw [active, tried]
    exact ⟨by omega, by simp⟩
  · simp [fresh.unused endpoint (List.mem_of_getElem? at_), outstandingOn, fresh.leases]

/-- A lease that was released is not released again. -/
theorem releaseLease_twice {world : Upstreams} {id lease : Nat} {failed : Bool}
    {group : UpstreamGroup} {held : UpstreamLease}
    (found : world.groups[id]? = some group) (out : world.leases[lease]? = some held)
    (released : held.released = true) :
    world.releaseLease id lease failed =
      (world, .error (.runtime "upstream lease released more than once")) := by
  simp only [releaseLease, found, out]
  exact if_pos (.inr released)

/-- However `acquire` and `release_lease` are interleaved over groups that share endpoints: every
counter is the number of the leases that are out, no group has more than `max_active`, no endpoint
underflows and no lease is released twice. A group that shares no endpoint refuses exactly when it
is full, it has its lease with the first endpoint it asks, and it chooses its endpoints in turn: any
`n` choices in a row choose each of its `n` endpoints once. What is assumed is that the groups and
endpoints are fresh. Nothing is assumed about the order of the calls, nor about who releases what; a
second release raises and changes nothing. -/
theorem group_admission (world : Upstreams) (fresh : world.Fresh) (actions : List Action) :
    let world' := actions.foldl step world
    (∀ (id : Nat) (group : UpstreamGroup), world'.groups[id]? = some group →
      group.active = world'.outstanding id ∧ group.active ≤ group.maxActive) ∧
    (∀ (place : Nat) (endpoint : UpstreamEndpoint), world'.endpoints[place]? = some endpoint →
      endpoint.active = world'.outstandingOn place) ∧
    (∀ error ∈ world'.errors, error = .runtime "upstream lease released more than once") ∧
    (∀ (id lease : Nat) (failed : Bool) (group : UpstreamGroup) (held : UpstreamLease),
      world'.groups[id]? = some group → world'.leases[lease]? = some held → held.released = true →
      world'.releaseLease id lease failed =
        (world', .error (.runtime "upstream lease released more than once"))) ∧
    ∀ (id : Nat) (group : UpstreamGroup), Unshared id world.settings → world'.groups[id]? = some group →
      (∀ result ∈ group.returns, result.2 = none ↔ result.1 = group.maxActive) ∧
      (group.tried ≠ none → ∃ group', (world'.attempt id).groups[id]? = some group' ∧ group'.tried = none ∧
        group'.returns = group.returns ++ [(group.active, some group.cursor)]) ∧
      (∀ index, index < (chosen group).length → (chosen group)[index]? = some (index %
        group.endpoints.length)) ∧ ∀ start, start + group.endpoints.length ≤ (chosen group).length →
        List.Perm (((chosen group).drop start).take group.endpoints.length)
          (List.range group.endpoints.length) := by
  intro world'
  have sound : world'.Sound :=
    Interleaving.invariant (fun _ action sound => sound.step action) actions fresh.sound
  refine ⟨fun id group found => ⟨sound.admitted id group found, (sound.bounded id group found).1⟩,
    sound.counted, sound.errors, fun _ _ _ _ _ => releaseLease_twice, fun id group alone found => ?_⟩
  obtain ⟨-, same, fair⟩ : world'.Sound ∧ world'.settings = world.settings ∧
      ∃ group, world'.groups[id]? = some group ∧ Fair group := by
    have before : id < world.groups.length := by
      have length := congrArg List.length (settings_run world actions)
      simp only [settings, List.length_map] at length
      rw [← length]
      exact (List.getElem?_eq_some_iff.mp found).1
    refine @Interleaving.invariant Upstreams Action step world
      (fun current => current.Sound ∧ current.settings = world.settings ∧ ∃ group,
        current.groups[id]? = some group ∧ Fair group) (fun current action => ?_)
      actions ⟨fresh.sound, rfl, _, List.getElem?_eq_getElem before, ?_⟩
    · rintro ⟨sound, same, group, found, fair⟩
      obtain ⟨next, at_, turn⟩ := sound.turn (same ▸ alone) found action
      exact ⟨sound.step action, (step_settings current action).trans same, next, at_,
        fair.turn (sound.bounded id group found).1 turn⟩
    · obtain ⟨-, cursor, -, returns, -⟩ := fresh.listed _ (List.getElem_mem before)
      exact ⟨by simp [returns], by simp [chosen, returns], by simp [chosen, returns, cursor]⟩
  obtain ⟨_, is, fair⟩ := fair
  rw [found] at is
  cases is
  refine ⟨fair.refuses, fun holding => ?_, fun index within => ?_, fair.window⟩
  · obtain ⟨cursor, listed⟩ := sound.listed id group found
    have place := List.getElem?_eq_getElem cursor
    have among := List.mem_of_getElem? place
    have at_ := List.getElem?_eq_getElem (listed _ among)
    have never := sound.never_refuses (same ▸ alone) found among at_
    obtain ⟨tried, holds⟩ := Option.ne_none_iff_exists'.mp holding
    simp only [attempt, found, holds, place, at_, never]
    refine ⟨_, Counting.set_at found _ id |>.trans (if_pos rfl), rfl, rfl⟩
  · rw [fair.cyclic, List.getElem?_map, List.getElem?_range within]
    rfl

/-- Two groups share the first endpoint, a third has two endpoints of its own and room for three leases. -/
def threeGroups : Upstreams where
  endpoints := [{ weight := 1, positive := by decide }, { weight := 1, positive := by decide },
    { weight := 2, positive := by decide }]
  groups := [
    { endpoints := [0], maxActive := 1, maxIdle := 1, some_ := by decide, admits := by decide },
    { endpoints := [0], maxActive := 3, maxIdle := 1, some_ := by decide, admits := by decide },
    { endpoints := [1, 2], maxActive := 3, maxIdle := 1, some_ := by decide, admits := by decide }]

def threeActions : List Action :=
  [.acquire 2, .acquire 0, .attempt 2, .attempt 0, .acquire 2, .attempt 2, .release 2 0 true,
    .release 2 0 false, .acquire 2, .attempt 2, .acquire 2, .attempt 2, .acquire 2]

theorem group_admission_threeGroups :
    ∃ group, (threeActions.foldl step threeGroups).groups[2]? = some group ∧
    group.returns = [(0, some 0), (1, some 1), (1, some 0), (2, some 1), (3, none)] ∧
    group.active = ((threeActions.foldl step threeGroups).outstanding 2 : Int) ∧
    List.Perm (((chosen group).drop 1).take group.endpoints.length)
      (List.range group.endpoints.length) := by
  have fresh : threeGroups.Fresh := ⟨by decide, by decide, rfl, rfl⟩
  have alone : Unshared 2 threeGroups.settings := by
    intro other mine theirs differs isMine isTheirs place among
    rcases other with _ | _ | _ | other
    · cases isMine
      cases isTheirs
      revert place
      decide
    · cases isMine
      cases isTheirs
      revert place
      decide
    · exact absurd rfl differs
    · cases isTheirs
  obtain ⟨group, found⟩ := Option.isSome_iff_exists.mp
    (by decide : (threeActions.foldl step threeGroups).groups[2]?.isSome = true)
  have returns : (threeActions.foldl step threeGroups).groups[2]?.map (fun group =>
      (group.returns, group.endpoints)) =
      some ([(0, some 0), (1, some 1), (1, some 0), (2, some 1), (3, none)], [1, 2]) := by decide
  rw [found] at returns
  obtain ⟨returns, endpoints⟩ := Prod.mk.inj (Option.some.inj returns)
  have admission := group_admission threeGroups fresh threeActions
  refine ⟨group, found, returns, (admission.1 2 group found).1, ?_⟩
  refine (admission.2.2.2.2 2 group alone found).2.2.2 1 ?_
  rw [chosen, returns, endpoints]
  decide

end Upstreams
end PccGateway
