import PccGateway.Lifecycle.Accept
import PccGateway.Lifecycle.GenerationLifetime

namespace PccGateway
namespace Accepting
open Generations

/-- What is outstanding for a call. -/
def Accept.shares (call : Accept) : Bool × Option Nat × Option Nat :=
  (call.admission, call.reference, call.channel)

namespace GatewayServer

/-- What a call has no part in: the ledgers, the other calls, which generations are retired and what
other owners have. -/
def surroundings (server : GatewayServer) : List Nat × List Nat × List Accept × List Bool × List Nat :=
  (server.connections, server.connectionOwners, server.calls,
    server.lifetime.store.generations.map (fun generation => generation.retired),
    server.tlsGenerations.map fun generation => generation.others)

/-- The counters are the sums of what is outstanding for the calls, and of what other owners have. -/
structure Sums (server : GatewayServer) : Prop where
  kept : server.lifetime.Kept
  active : server.lifetime.store.lifecycle.metrics .connectionsActive =
    server.calls.countP fun call => call.admission
  holders : ∀ id, server.lifetime.holders.count id = server.calls.countP fun call =>
    decide (call.reference = some id)
  tls : ∀ (id : Nat) (generation : TlsGeneration), server.tlsGenerations[id]? = some generation →
    generation.references = generation.others + server.calls.countP (fun call =>
      decide (call.channel = some id)) ∧ (generation.destroyed = true ↔ generation.references = 0)
  ranged : ∀ call ∈ server.calls, ∀ id, call.channel = some id → id < server.tlsGenerations.length

section Sums
variable {server : GatewayServer} {place : Nat} {call new : Accept}
  (found : server.calls[place]? = some call)
include found

omit found in
theorem Sums.ranged_set (sums : server.Sums) {tlsGenerations : List TlsGeneration}
    (same : tlsGenerations.length = server.tlsGenerations.length)
    (channel : ∀ id, new.channel = some id → id < server.tlsGenerations.length) :
    ∀ other ∈ server.calls.set place new, ∀ id, other.channel = some id → id < tlsGenerations.length := by
  intro other member id is
  rw [same]
  rcases List.mem_or_eq_of_mem_set member with old | rfl
  · exact sums.ranged other old id is
  · exact channel id is

theorem channel_of_same (sums : server.Sums) (same : new.channel = call.channel) (id : Nat)
    (is : new.channel = some id) :
    id < server.tlsGenerations.length :=
  sums.ranged call (List.mem_of_getElem? found) id (same ▸ is)

/-- A step that neither takes nor gives anything. -/
theorem Sums.put (sums : server.Sums) (same : new.shares = call.shares) : (server.put place new).Sums := by
  obtain ⟨admission, reference, channel⟩ : new.admission = call.admission ∧ new.reference = call.reference ∧
      new.channel = call.channel := by simpa [Accept.shares] using same
  refine ⟨sums.kept, ?_, fun id => ?_, fun id generation is => ?_,
    sums.ranged_set rfl (channel_of_same found sums channel)⟩
  · simp only [GatewayServer.put]
    rw [Counting.countP_set_same found admission]
    exact sums.active
  · simp only [GatewayServer.put]
    rw [Counting.countP_set_same found (by rw [reference])]
    exact sums.holders id
  · simp only [GatewayServer.put]
    rw [Counting.countP_set_same found (by rw [channel])]
    exact sums.tls id generation is

/-- The admission goes with the counter. -/
theorem Sums.put_admission (sums : server.Sums) {lifecycle : GatewayLifecycle}
    (forward : lifecycle.state = server.lifetime.store.lifecycle.state)
    (reference : new.reference = call.reference) (channel : new.channel = call.channel)
    (count : lifecycle.metrics .connectionsActive = (server.calls.set place new).countP fun call =>
      call.admission) :
    ((server.onLifecycle lifecycle).put place new).Sums := by
  refine ⟨sums.kept.lifecycle (le_of_eq (by rw [forward])), count, fun id => ?_, fun id generation is => ?_,
    sums.ranged_set rfl (channel_of_same found sums channel)⟩
  · simp only [GatewayServer.put, onLifecycle]
    rw [Counting.countP_set_same found (by rw [reference])]
    exact sums.holders id
  · simp only [GatewayServer.put, onLifecycle]
    rw [Counting.countP_set_same found (by rw [channel])]
    exact sums.tls id generation is

/-- The reference goes with the holder. -/
theorem Sums.put_reference (sums : server.Sums) {lifetime : Lifetime} (kept : lifetime.Kept)
    (lifecycle : lifetime.store.lifecycle = server.lifetime.store.lifecycle)
    (admission : new.admission = call.admission) (channel : new.channel = call.channel)
    (count : ∀ id, lifetime.holders.count id = (server.calls.set place new).countP fun call =>
      decide (call.reference = some id)) :
    ({ server with lifetime }.put place new).Sums := by
  refine ⟨kept, ?_, count, fun id generation is => ?_,
    sums.ranged_set rfl (channel_of_same found sums channel)⟩
  · simp only [GatewayServer.put, lifecycle]
    rw [Counting.countP_set_same found (by rw [admission])]
    exact sums.active
  · simp only [GatewayServer.put]
    rw [Counting.countP_set_same found (by rw [channel])]
    exact sums.tls id generation is

/-- The reference of the channel goes with the count of its generation. -/
theorem Sums.put_channel (sums : server.Sums) {id : Nat} {old generation : TlsGeneration}
    (is : server.tlsGenerations[id]? = some old) (admission : new.admission = call.admission)
    (reference : new.reference = call.reference)
    (channel : ∀ other, new.channel = some other → other < server.tlsGenerations.length)
    (others : ∀ other, other ≠ id → decide (new.channel = some other) = decide (call.channel = some other))
    (count : generation.references =
      generation.others + (server.calls.set place new).countP fun call => decide (call.channel = some id))
    (destroyed : generation.destroyed = true ↔ generation.references = 0) :
    ({ server with tlsGenerations := server.tlsGenerations.set id generation }.put place new).Sums := by
  refine ⟨sums.kept, ?_, fun other => ?_, fun other found' is' => ?_,
    sums.ranged_set (List.length_set ..) channel⟩
  · simp only [GatewayServer.put]
    rw [Counting.countP_set_same found (by rw [admission])]
    exact sums.active
  · simp only [GatewayServer.put]
    rw [Counting.countP_set_same found (by rw [reference])]
    exact sums.holders other
  · simp only [GatewayServer.put] at is' ⊢
    rw [Counting.set_at is] at is'
    split at is'
    · rename_i same
      obtain rfl := same
      cases is'
      exact ⟨count, destroyed⟩
    · rename_i apart
      rw [Counting.countP_set_same found (others other (Ne.symm apart))]
      exact sums.tls other found' is'

end Sums

theorem surroundings_tls {server : GatewayServer} {id : Nat} {old new : TlsGeneration}
    (is : server.tlsGenerations[id]? = some old) (same : new.others = old.others) :
    GatewayServer.surroundings { server with tlsGenerations := server.tlsGenerations.set id new } =
      server.surroundings := by
  simp only [surroundings, Counting.map_set_same (f := fun generation : TlsGeneration =>
    generation.others) is same]

theorem acquired_store {store store' : Generations} {id : Nat}
    (acquired : Generations.acquireGeneration store = (store', .ok id)) :
    store'.lifecycle = store.lifecycle ∧
      store'.generations.map (fun generation => generation.retired) =
        store.generations.map fun generation => generation.retired := by
  simp only [Generations.acquireGeneration, Method.bind_run, Method.get_run] at acquired
  split at acquired
  · cases acquired
  · simp only [Method.bind_run, Generations.retain] at acquired
    cases is : store.generations[store.current]? with
    | none =>
      simp only [is] at acquired
      cases acquired
      exact ⟨rfl, rfl⟩
    | some generation =>
      simp only [is] at acquired
      cases released : generation.released with
      | true =>
        simp only [released, if_true] at acquired
        cases acquired
      | false =>
        simp only [released, Bool.false_eq_true, if_false] at acquired
        cases acquired
        exact ⟨rfl, Counting.map_set_same is rfl⟩

section Primitives
variable {server : GatewayServer} {place : Nat} {call : Accept} (sums : server.Sums)
  (found : server.calls[place]? = some call)
include sums found

theorem admitConnection_spec (free : call.admission = false) :
    (∃ lifecycle, GatewayLifecycle.admitConnection server.lifetime.store.lifecycle = (lifecycle, .ok true) ∧
      ∀ new : Accept, new.shares = (true, call.reference, call.channel) →
      ((server.onLifecycle lifecycle).put place new).Sums) ∨
    ∃ lifecycle, GatewayLifecycle.admitConnection server.lifetime.store.lifecycle = (lifecycle, .ok false) ∧
      ∀ new : Accept, new.shares = call.shares → ((server.onLifecycle lifecycle).put place new).Sums := by
  have active := sums.active
  unfold GatewayLifecycle.admitConnection
  rw [GatewayLifecycle.admitRunning_run]
  split
  · refine .inr ⟨_, rfl, fun new same => ?_⟩
    obtain ⟨admission, reference, channel⟩ : new.admission = call.admission ∧ new.reference =
        call.reference ∧ new.channel = call.channel := by simpa [Accept.shares] using same
    refine sums.put_admission found rfl reference channel ?_
    rw [Counting.countP_set_same found admission, ← active]
    simp [GatewayLifecycle.add]
  · refine .inl ⟨_, rfl, fun new same => ?_⟩
    obtain ⟨admission, reference, channel⟩ : new.admission = true ∧ new.reference = call.reference ∧
      new.channel = call.channel := by simpa [Accept.shares] using same
    refine sums.put_admission found rfl reference channel ?_
    have more := Counting.countP_set_on (p := fun call : Accept => call.admission) found free admission
    simp only [GatewayLifecycle.add, Function.update_self, reduceCtorEq, ne_eq, not_false_eq_true,
      Function.update_of_ne]
    omega

theorem releaseConnection_spec (held : call.admission = true) :
    ∃ server', server.releaseConnection call =
        (server', { call with admission := false, connectionReleases := call.connectionReleases + 1 }) ∧
      server'.surroundings = server.surroundings ∧
      ∀ new : Accept, new.shares = (false, call.reference, call.channel) →
      (server'.put place new).Sums := by
  have active := sums.active
  have positive : 0 < server.calls.countP fun call => call.admission :=
    List.countP_pos_iff.mpr ⟨call, List.mem_of_getElem? found, held⟩
  have enough : ¬ server.lifetime.store.lifecycle.metrics .connectionsActive ≤ 0 := by omega
  have returns : GatewayLifecycle.releaseConnection server.lifetime.store.lifecycle =
      (server.lifetime.store.lifecycle.add .connectionsActive (-1), .ok ()) := by
    unfold GatewayLifecycle.releaseConnection
    rw [GatewayLifecycle.releaseOne_run, if_neg enough]
  refine ⟨server.onLifecycle (server.lifetime.store.lifecycle.add .connectionsActive (-1)),
    by simp only [releaseConnection, returns], rfl, fun new same => ?_⟩
  obtain ⟨admission, reference, channel⟩ : new.admission = false ∧ new.reference = call.reference ∧
    new.channel = call.channel := by simpa [Accept.shares] using same
  refine sums.put_admission found rfl reference channel ?_
  have less := Counting.countP_set_off (p := fun call : Accept => call.admission) found held admission
  simp only [GatewayLifecycle.add, Function.update_self]
  omega

theorem releaseChannel_spec :
    ∃ server', server.releaseChannel call = (server', { call with channel := none }) ∧
      server'.surroundings = server.surroundings ∧
      ∀ new : Accept, new.shares = (call.admission, call.reference, none) →
      (server'.put place new).Sums := by
  unfold releaseChannel
  cases has : call.channel with
  | none =>
    refine ⟨server, by simp [← has], rfl, fun new same => sums.put found ?_⟩
    simpa [Accept.shares, has] using same
  | some id =>
    have inRange := sums.ranged call (List.mem_of_getElem? found) id has
    have is := List.getElem?_eq_getElem inRange
    generalize server.tlsGenerations[id] = generation at is
    obtain ⟨references, destroyed⟩ := sums.tls id generation is
    have on : decide (call.channel = some id) = true := decide_eq_true has
    have positive : 0 < server.calls.countP fun call => decide (call.channel = some id) :=
      List.countP_pos_iff.mpr ⟨call, List.mem_of_getElem? found, on⟩
    have enough : ¬ (generation.references ≤ 0 ∨ generation.destroyed = true) := by
      rw [destroyed]
      omega
    simp only [is, Option.bind_some, TlsGeneration.release, if_neg enough]
    refine ⟨_, rfl, ?_, fun new same => ?_⟩
    · exact surroundings_tls is rfl
    · obtain ⟨admission, reference, channel⟩ : new.admission = call.admission ∧ new.reference =
          call.reference ∧ new.channel = none := by simpa [Accept.shares] using same
      refine sums.put_channel found is admission reference (by simp [channel])
        (fun other apart => ?_) ?_ decide_eq_true_iff
      · rw [channel, has]
        simp [apart.symm]
      · have off : decide (new.channel = some id) = false := decide_eq_false (by simp [channel])
        have less := Counting.countP_set_off
          (p := fun call : Accept => decide (call.channel = some id)) found on off
        simp only
        omega

theorem newChannel_spec (free : call.channel = none) {id : Nat} {generation : TlsGeneration}
    (made : server.newChannel call = some (id, generation)) :
    GatewayServer.surroundings
      { server with tlsGenerations := server.tlsGenerations.set id generation } = server.surroundings ∧
      ∀ new : Accept, new.shares = (call.admission, call.reference, some id) →
        ({ server with tlsGenerations := server.tlsGenerations.set id generation }.put place new).Sums := by
  obtain ⟨old, is, retained⟩ : ∃ old, server.tlsGenerations[id]? = some old ∧ old.retain =
      some generation := by
    simp only [newChannel, Option.bind_eq_bind, Option.bind_eq_some_iff] at made
    obtain ⟨tls, -, old, is, rest⟩ := made
    split at rest
    · cases rest
    · obtain ⟨kept, retained, same⟩ := Option.bind_eq_some_iff.mp rest
      cases same
      exact ⟨old, is, retained⟩
  obtain ⟨references, destroyed⟩ := sums.tls id old is
  simp only [TlsGeneration.retain] at retained
  split at retained
  · cases retained
  · rename_i live
    cases retained
    refine ⟨surroundings_tls is rfl, fun new same => ?_⟩
    obtain ⟨admission, reference, channel⟩ : new.admission = call.admission ∧ new.reference =
        call.reference ∧ new.channel = some id := by simpa [Accept.shares] using same
    have inRange : id < server.tlsGenerations.length := (List.getElem?_eq_some_iff.mp is).1
    refine sums.put_channel found is admission reference (fun other has => ?_) (fun other apart => ?_) ?_ ?_
    · cases channel.symm.trans has
      exact inRange
    · rw [channel, free]
      simp [apart.symm]
    · have off : decide (call.channel = some id) = false := decide_eq_false (by simp [free])
      have more := Counting.countP_set_on (p := fun call : Accept => decide (call.channel = some id))
        found off
        (decide_eq_true channel)
      simp only
      omega
    · simp only [not_or, Int.not_le, Bool.not_eq_true] at live
      simp only [live.2, Bool.false_eq_true, false_iff]
      omega

theorem acquireGeneration_spec (free : call.reference = none) {store : Generations} {id : Nat}
    (acquired : Generations.acquireGeneration server.lifetime.store = (store, .ok id)) :
    GatewayServer.surroundings { server with
        lifetime := { server.lifetime with store, holders := server.lifetime.holders ++ [id] } } =
          server.surroundings ∧
      ∀ new : Accept, new.shares = (call.admission, some id, call.channel) → ({ server with
        lifetime := { server.lifetime with store, holders := server.lifetime.holders ++ [id] } }.put
          place new).Sums := by
  have kept := sums.kept.step .acquireGeneration
  simp only [Lifetime.step, acquired] at kept
  obtain ⟨lifecycle, flags⟩ := acquired_store acquired
  refine ⟨by simp only [surroundings, flags], fun new same => ?_⟩
  obtain ⟨admission, reference, channel⟩ : new.admission = call.admission ∧ new.reference = some id ∧
    new.channel = call.channel := by simpa [Accept.shares] using same
  refine sums.put_reference found kept lifecycle admission channel fun other => ?_
  have before := sums.holders other
  simp only [List.count_append]
  by_cases same : other = id
  · rw [same] at before ⊢
    have off : decide (call.reference = some id) = false := decide_eq_false (by simp [free])
    have more := Counting.countP_set_on (p := fun call : Accept => decide (call.reference = some id))
      found off
      (decide_eq_true reference)
    rw [List.count_singleton_self]
    omega
  · rw [Counting.countP_set_same found ?_, List.count_singleton, if_neg (by simpa using Ne.symm same)]
    · exact before
    · rw [reference, free]
      simp [Ne.symm same]

theorem releaseGeneration_spec (held : call.reference = call.generation) :
    ∃ server', server.releaseGeneration call = (server', { call with
        reference := none,
          generationReleases := call.generationReleases + if call.generation.isSome then 1 else 0 }) ∧
      server'.surroundings = server.surroundings ∧
      ∀ new : Accept, new.shares = (call.admission, none, call.channel) → (server'.put place new).Sums := by
  unfold releaseGeneration
  cases has : call.generation with
  | none =>
    rw [has] at held
    cases call
    cases has
    cases held
    exact ⟨server, rfl, rfl, fun new same => sums.put found same⟩
  | some id =>
    rw [has] at held
    have on : decide (call.reference = some id) = true := decide_eq_true held
    have holder : id ∈ server.lifetime.holders := by
      rw [← List.count_pos_iff, sums.holders]
      exact List.countP_pos_iff.mpr ⟨call, List.mem_of_getElem? found, on⟩
    have inRange := sums.kept.roles.ranged id (sums.kept.held id holder)
    rw [List.length_map] at inRange
    have is := List.getElem?_eq_getElem inRange
    generalize server.lifetime.store.generations[id] = generation at is
    obtain ⟨live, positive, kept⟩ := sums.kept.release holder is
    have enough : ¬ (generation.released = true ∨ generation.references ≤ 0) := by simp [live, positive]
    simp only [Generations.release, is, if_neg enough]
    refine ⟨_, rfl, ?_, fun new same => ?_⟩
    · have flags := Counting.map_set_same (f := fun generation : GatewayGeneration => generation.retired) is
        (Lifetime.drop_same generation).1
      simp only [surroundings, Lifetime.goes, Generations.put, flags]
    · obtain ⟨admission, reference, channel⟩ : new.admission = call.admission ∧ new.reference = none ∧
        new.channel = call.channel := by simpa [Accept.shares] using same
      refine sums.put_reference found kept rfl admission channel fun other => ?_
      have before := sums.holders other
      by_cases same : other = id
      · rw [same] at before ⊢
        have off : decide (new.reference = some id) = false := decide_eq_false (by simp [reference])
        have less := Counting.countP_set_off
          (p := fun call : Accept => decide (call.reference = some id)) found on off
        simp only [Lifetime.goes, List.count_erase_self]
        omega
      · simp only [Lifetime.goes, List.count_erase_of_ne same]
        rw [Counting.countP_set_same found ?_]
        · exact before
        · rw [reference, held]
          simp [Ne.symm same]

end Primitives
end GatewayServer
end Accepting
end PccGateway
