import PccGateway.Dns.Resolver
import Mathlib.Logic.Function.Iterate

namespace PccGateway
namespace Dns

section Ids

theorem nextId_eq {queryId : Nat} (low : 1 ≤ queryId) (high : queryId ≤ 65535) :
    nextId queryId = queryId % 65535 + 1 := by
  have masked : (queryId + 1) &&& 65535 = (queryId + 1) % 65536 :=
    Nat.and_two_pow_sub_one_eq_mod (queryId + 1) 16
  unfold nextId
  dsimp only
  rw [masked]
  split <;> omega

/-- The ids go round. -/
theorem nextId_iterate {queryId : Nat} (low : 1 ≤ queryId) (high : queryId ≤ 65535) (count : Nat) :
    nextId^[count] queryId = (queryId - 1 + count) % 65535 + 1 := by
  induction count with
  | zero => simp only [Function.iterate_zero, id]; omega
  | succ count ih =>
    have bound := Nat.mod_lt (queryId - 1 + count) (by decide : 0 < 65535)
    rw [Function.iterate_succ_apply', ih, nextId_eq (by omega) (by omega)]
    omega

theorem nextId_iterate_ne {queryId : Nat} (low : 1 ≤ queryId) (high : queryId ≤ 65535) {count : Nat}
    (positive : 0 < count) (small : count < 65535) : nextId^[count] queryId ≠ queryId := by
  rw [nextId_iterate low high]
  omega

end Ids

/-- The drivers with an operation that a call has begun. -/
def newAsking (before after : Resolution) : List DnsResolveDriver :=
  (after.drivers.drop before.drivers.length).filterMap fun begun =>
    match begun.2 with
    | .answered _ => none
    | .asking driver => some driver

/-- The query ids of the operations that a call has begun. -/
def newIds (before after : Resolution) : List Int :=
  (newAsking before after).map (·.operation.queryId) ++
    (after.operations.drop before.operations.length).map (·.queryId)

/-- The servers that the drivers that a call has begun ask first. -/
def newServers (before after : Resolution) : List (Option DnsServer) :=
  ((newAsking before after).filter (!·.done)).map (·.server)

/-- What is new in each call of a run. -/
def newOver {α : Type} (case : CaseMapping) (new : Resolution → Resolution → List α) :
    Resolution → List ResolverCall → List α
  | _, [] => []
  | s, call :: calls => new s (s.call case call).2 ++ newOver case new (s.call case call).2 calls

namespace Resolver

/-- The server that the next query is sent to first. -/
def firstServer (resolver : Resolver) : Option DnsServer :=
  resolver.config.servers[(if resolver.config.rotate then resolver.nextServer else 0) %
    resolver.config.servers.length]?

def serverBehind (resolver : Resolver) : Nat :=
  if resolver.config.servers ≠ [] ∧ resolver.config.rotate then
    (resolver.nextServer + 1) % resolver.config.servers.length
  else resolver.nextServer

end Resolver

/-- What a call does to the counters. -/
structure Counts (before after : Resolution) : Prop where
  config : after.resolver.config = before.resolver.config
  ids : (after.resolver.nextQueryId = before.resolver.nextQueryId ∧ newIds before after = []) ∨
    (after.resolver.nextQueryId = nextId before.resolver.nextQueryId ∧
      (newIds before after = [] ∨ newIds before after = [(before.resolver.nextQueryId : Int)]))
  servers : (after.resolver.nextServer = before.resolver.nextServer ∧ newServers before after = []) ∨
    (after.resolver.nextServer = before.resolver.serverBehind ∧ newServers before after =
      [before.resolver.firstServer])

section Counts
variable {case : CaseMapping} {s : Resolution}

/-- A call that begins nothing. -/
theorem Counts.none {after : Resolution} (config : after.resolver.config = s.resolver.config)
    (id : after.resolver.nextQueryId = s.resolver.nextQueryId)
    (server : after.resolver.nextServer = s.resolver.nextServer)
    (drivers : after.drivers.length = s.drivers.length)
    (operations : after.operations.length = s.operations.length) : Counts s after := by
  have noDrivers : after.drivers.drop s.drivers.length = [] := List.drop_eq_nil_of_le (by omega)
  have noOperations : after.operations.drop s.operations.length = [] := List.drop_eq_nil_of_le (by omega)
  have noAsking : newAsking s after = [] := by rw [newAsking, noDrivers, List.filterMap_nil]
  refine ⟨config, .inl ⟨id, ?_⟩, .inl ⟨server, ?_⟩⟩
  · rw [newIds, noAsking, noOperations]
    rfl
  · rw [newServers, noAsking]
    rfl

theorem newAsking_append (s : Resolution) (resolver : Resolver) (qtype : Int) (driver : ResolverDriver) :
    newAsking s { s with resolver, drivers := s.drivers ++ [(qtype, driver)] } =
      match driver with
      | .answered _ => []
      | .asking driver => [driver] := by
  cases driver <;> simp [newAsking]

/-- How `begin_driver` uses the counters. -/
inductive DriverBegun (resolver : Resolver) : Except DnsExn ResolverDriver × Resolver → Prop
  | unasked {outcome : Except DnsExn ResolverDriver} {next : Resolver}
      (config : next.config = resolver.config)
      (id : next.nextQueryId = resolver.nextQueryId) (server : next.nextServer = resolver.nextServer)
      (known : ∀ driver, outcome ≠ .ok (.asking driver)) : DriverBegun resolver (outcome, next)
  | unmade {error : DnsExn} {next : Resolver} (config : next.config = resolver.config)
      (id : next.nextQueryId = nextId resolver.nextQueryId)
      (server : next.nextServer = resolver.nextServer) :
      DriverBegun resolver (.error error, next)
  | idle {driver : DnsResolveDriver} {next : Resolver} (config : next.config = resolver.config)
      (id : next.nextQueryId = nextId resolver.nextQueryId) (server : next.nextServer = resolver.nextServer)
      (queryId : driver.operation.queryId = resolver.nextQueryId) (done : driver.done = true) :
      DriverBegun resolver (.ok (.asking driver), next)
  | active {driver : DnsResolveDriver} {next : Resolver} (config : next.config = resolver.config)
      (id : next.nextQueryId = nextId resolver.nextQueryId)
      (server : next.nextServer = resolver.serverBehind)
      (queryId : driver.operation.queryId = resolver.nextQueryId) (running : driver.done = false)
      (first : driver.server = resolver.firstServer) : DriverBegun resolver (.ok (.asking driver), next)

theorem maxAttempts_eq_zero {config : DnsResolverConfig} :
    config.maxAttempts = 0 ↔ config.servers = [] := by
  have positive := config.accepted
  rw [DnsResolverConfig.maxAttempts, Int.mul_eq_zero]
  simp only [Int.natCast_eq_zero, List.length_eq_zero_iff, or_iff_left_iff_imp]
  omega

theorem newDriver_operation (operation : ResolveOperation) (config : DnsResolverConfig)
    (nowMs startServer : Int) (terminalError : String) :
    (newDriver operation config nowMs startServer terminalError).operation = operation := by
  unfold newDriver
  dsimp only
  split
  · rfl
  split <;> rfl

theorem startQuery_begun (resolver : Resolver) (name : Text) (qtype nowMs deadlineMs : Int) :
    DriverBegun resolver (resolver.startQuery case name qtype nowMs deadlineMs) := by
  unfold Resolver.startQuery Resolver.allocateOperation
  dsimp only
  cases made : newOperation case resolver.nextQueryId name qtype deadlineMs resolver.cache
    resolver.policy with
  | error error => exact .unmade rfl rfl rfl
  | ok operation =>
    dsimp only
    have queryId := (newOperation_fields made).1
    by_cases bare : resolver.config.servers = []
    · refine .idle rfl rfl ?_ (by rw [newDriver_operation]; exact queryId) ?_
      · rw [if_neg fun both => both.1 bare]
      · have none := maxAttempts_eq_zero.mpr bare
        simp [newDriver, none]
    · refine .active rfl rfl rfl (by rw [newDriver_operation]; exact queryId) ?_ ?_
      · have some := mt maxAttempts_eq_zero.mp bare
        simp [newDriver, some, DnsResolveDriver.selectAttempt]
      · have some := mt maxAttempts_eq_zero.mp bare
        simp only [newDriver, ne_eq, not_true_eq_false, decide_false, Bool.false_eq_true, if_false,
          some, DnsResolveDriver.selectAttempt,
          Int.natCast_zero, Int.zero_ediv, Int.add_zero, ← Int.natCast_mod, Int.toNat_natCast]
        rfl

theorem startExpired_begun (resolver : Resolver) (name : Text) (qtype nowMs deadlineMs : Int) :
    DriverBegun resolver (resolver.startExpired case name qtype nowMs deadlineMs) := by
  unfold Resolver.startExpired Resolver.allocateOperation
  dsimp only
  cases made : newOperation case resolver.nextQueryId name qtype deadlineMs resolver.cache
    resolver.policy with
  | error error => exact .unmade rfl rfl rfl
  | ok operation =>
    have queryId : (operation.checkDeadline nowMs).queryId = resolver.nextQueryId := by
      rw [← (newOperation_fields made).1]
      unfold ResolveOperation.checkDeadline
      split <;> rfl
    refine .idle rfl rfl rfl ?_ ?_
    · rw [newDriver_operation]
      exact queryId
    · simp [newDriver]

theorem beginDriver_begun (resolver : Resolver) (name : Text) (qtype nowMs deadlineMs : Int) :
    DriverBegun resolver (resolver.beginDriver case name qtype nowMs deadlineMs) := by
  have known (values : List Text) (source : String) :
      DriverBegun resolver (resolver.acceptKnown case name qtype values source) := by
    unfold Resolver.acceptKnown
    dsimp only
    refine .unasked rfl rfl rfl fun driver same => ?_
    cases accepted : (resolver.policy.accept case { name, values, qtype }).1 <;>
      simp [accepted, Except.map] at same
  unfold Resolver.beginDriver
  split
  · exact .unasked rfl rfl rfl (by rintro _ ⟨⟩)
  split
  · exact startExpired_begun ..
  split
  · exact known _ _
  split
  · exact known _ _
  split
  · refine .unasked rfl rfl rfl fun driver same => ?_
    cases same
  · rename_i cache _
    have begun := @startQuery_begun case { resolver with cache } name qtype nowMs deadlineMs
    generalize Resolver.startQuery case { resolver with cache } name qtype nowMs deadlineMs =
      outcome at begun
    cases begun with
    | unasked config id server known => exact .unasked config id server known
    | unmade config id server => exact .unmade config id server
    | idle config id server queryId done => exact .idle config id server queryId done
    | active config id server queryId running first => exact .active config id server queryId running first

theorem call_counts (s : Resolution) (call : ResolverCall) : Counts s (s.call case call).2 := by
  cases call with
  | begin name qtype nowMs deadlineMs =>
    unfold Resolution.call Resolver.begin
    dsimp only
    cases s.resolver.cache.get case name qtype nowMs with
    | mk cached cache =>
      cases cached with
      | some entry => exact .none rfl rfl rfl rfl rfl
      | none =>
        unfold Resolver.allocateOperation
        dsimp only
        have noAsking (operations : List ResolveOperation) (resolver : Resolver) :
            newAsking s { s with resolver, operations } = [] := by
          simp [newAsking]
        cases made : newOperation case s.resolver.nextQueryId name qtype deadlineMs cache
          s.resolver.policy with
        | error error =>
          refine ⟨rfl, .inr ⟨rfl, .inl ?_⟩, .inl ⟨rfl, ?_⟩⟩
          · simp [Except.map, newIds, newAsking]
          · simp [Except.map, newServers, newAsking]
        | ok operation =>
          have queryId := (newOperation_fields made).1
          refine ⟨rfl, .inr ⟨rfl, .inr ?_⟩, .inl ⟨rfl, ?_⟩⟩
          · simp [Except.map, newIds, newAsking, queryId]
          · simp [Except.map, newServers, newAsking]
  | beginDriver name qtype nowMs deadlineMs =>
    have begun := @beginDriver_begun case s.resolver name qtype nowMs deadlineMs
    unfold Resolution.call
    dsimp only
    generalize s.resolver.beginDriver case name qtype nowMs deadlineMs = outcome at begun
    cases begun with
    | @unasked outcome next config id server known =>
      cases outcome with
      | error error => exact .none config id server rfl rfl
      | ok driver =>
        cases driver with
        | asking driver => exact (known driver rfl).elim
        | answered driver =>
          have noAsking := newAsking_append s next qtype (.answered driver)
          refine ⟨config, .inl ⟨id, ?_⟩, .inl ⟨server, ?_⟩⟩
          · simp [newIds, noAsking]
          · simp [newServers, noAsking]
    | unmade config id server =>
      refine ⟨config, .inr ⟨id, .inl ?_⟩, .inl ⟨server, ?_⟩⟩
      · simp [newIds, newAsking]
      · simp [newServers, newAsking]
    | @idle driver next config id server queryId done =>
      have asking := newAsking_append s next qtype (.asking driver)
      refine ⟨config, .inr ⟨id, .inr ?_⟩, .inl ⟨server, ?_⟩⟩
      · simp [newIds, asking, queryId]
      · simp [newServers, asking, done]
    | @active driver next config id server queryId running first =>
      have asking := newAsking_append s next qtype (.asking driver)
      refine ⟨config, .inr ⟨id, .inr ?_⟩, .inr ⟨server, ?_⟩⟩
      · simp [newIds, asking, queryId]
      · simp [newServers, asking, running, first]
  | step index nowMs transport =>
    unfold Resolution.call
    dsimp only
    split
    · exact .none rfl rfl rfl rfl rfl
    · exact .none rfl rfl rfl rfl rfl
    · exact .none rfl rfl rfl List.length_set rfl
  | cancelDriver index =>
    unfold Resolution.call
    dsimp only
    split
    · exact .none rfl rfl rfl rfl rfl
    · exact .none rfl rfl rfl rfl rfl
    · exact .none rfl rfl rfl List.length_set rfl
  | receive index payload nowMs =>
    unfold Resolution.call
    dsimp only
    split
    · exact .none rfl rfl rfl rfl rfl
    · exact .none rfl rfl rfl rfl List.length_set
  | cancelOperation index =>
    unfold Resolution.call
    dsimp only
    split
    · exact .none rfl rfl rfl rfl rfl
    · exact .none rfl rfl rfl rfl List.length_set

end Counts

section Runs
variable {case : CaseMapping}

/-- The ids of a run are ids that come up from the one that the resolver has next, and in that order. -/
theorem newIds_run (s : Resolution) (calls : List ResolverCall) (short : calls.length ≤ 65535) :
    (newOver case newIds s calls).Nodup ∧ ∀ queryId ∈ newOver case newIds s calls,
      ∃ count < calls.length, queryId = (nextId^[count] s.resolver.nextQueryId : Nat) := by
  induction calls generalizing s with
  | nil => exact ⟨List.nodup_nil, by rintro _ ⟨⟩⟩
  | cons call calls ih =>
    obtain ⟨distinct, counted⟩ := ih (s.call case call).2 (by simp at short; omega)
    have counts := (@call_counts case s call).ids
    have seeded := s.resolver.seeded
    rw [newOver]
    rcases counts with ⟨same, none⟩ | ⟨next, none | one⟩
    · rw [none, List.nil_append]
      refine ⟨distinct, fun queryId member => ?_⟩
      obtain ⟨count, small, rfl⟩ := counted queryId member
      exact ⟨count, by simp; omega, by rw [same]⟩
    · rw [none, List.nil_append]
      refine ⟨distinct, fun queryId member => ?_⟩
      obtain ⟨count, small, rfl⟩ := counted queryId member
      exact ⟨count + 1, by simp; omega, by rw [next, Function.iterate_succ_apply]⟩
    · rw [one, List.singleton_append]
      refine ⟨List.nodup_cons.mpr ⟨fun member => ?_, distinct⟩, fun queryId member => ?_⟩
      · obtain ⟨count, small, same⟩ := counted _ member
        rw [next, ← Function.iterate_succ_apply] at same
        refine nextId_iterate_ne seeded.1 seeded.2 (Nat.succ_pos count) ?_ (Int.natCast_inj.mp same).symm
        simp at short
        omega
      · rcases List.mem_cons.mp member with rfl | later
        · exact ⟨0, by simp, rfl⟩
        · obtain ⟨count, small, rfl⟩ := counted queryId later
          exact ⟨count + 1, by simp; omega, by rw [next, Function.iterate_succ_apply]⟩

theorem newIds_range (s : Resolution) (calls : List ResolverCall) :
    ∀ queryId ∈ newOver case newIds s calls, 1 ≤ queryId ∧ queryId ≤ 65535 := by
  induction calls generalizing s with
  | nil => rintro _ ⟨⟩
  | cons call calls ih =>
    intro queryId member
    rcases List.mem_append.mp member with now | later
    · have seeded := s.resolver.seeded
      rcases (@call_counts case s call).ids with ⟨-, none⟩ | ⟨-, none | one⟩
      · rw [none] at now
        cases now
      · rw [none] at now
        cases now
      · rw [one] at now
        obtain rfl := List.mem_singleton.mp now
        omega
    · exact ih _ queryId later

/-- The server that the query behind `count` others is sent to first. -/
def Resolver.serverAfter (resolver : Resolver) (count : Nat) : Option DnsServer :=
  resolver.config.servers[(if resolver.config.rotate then resolver.nextServer + count else 0) %
    resolver.config.servers.length]?

theorem serverAfter_succ {before after : Resolver} (config : after.config = before.config)
    (server : after.nextServer = before.serverBehind)
    (count : Nat) : after.serverAfter count = before.serverAfter (count + 1) := by
  unfold Resolver.serverAfter
  rw [config, server]
  by_cases bare : before.config.servers = []
  · simp [bare]
  by_cases rotates : before.config.rotate = true
  · rw [if_pos rotates, if_pos rotates, Resolver.serverBehind, if_pos ⟨bare, rotates⟩,
      Nat.mod_add_mod, Nat.add_assoc, Nat.add_comm 1]
  · rw [if_neg rotates, if_neg rotates]

theorem newServers_run (s : Resolution) (calls : List ResolverCall) : newOver case newServers s calls =
    (List.range (newOver case newServers s calls).length).map s.resolver.serverAfter := by
  induction calls generalizing s with
  | nil => rfl
  | cons call calls ih =>
    have counts := @call_counts case s call
    rw [newOver]
    rcases counts.servers with ⟨same, none⟩ | ⟨next, one⟩
    · have alike : (s.call case call).2.resolver.serverAfter = s.resolver.serverAfter := by
        funext count
        rw [Resolver.serverAfter, Resolver.serverAfter, counts.config, same]
      rw [none, List.nil_append, ← alike]
      exact ih _
    · have alike : (s.call case call).2.resolver.serverAfter = s.resolver.serverAfter ∘ Nat.succ :=
        funext (serverAfter_succ counts.config next)
      rw [one, List.singleton_append, List.length_cons, List.range_succ_eq_map, List.map_cons,
        List.map_map, ← alike, ← ih]
      rfl

/-- In every run of a resolver the queries of any 65535 calls in a row have different ids, none of
them zero. The queries are sent to the servers in turn when the configuration says so, and to the
first server first when it does not. The resolver is in any state. A call that starts no query,
since the name, the hosts file or the cache answers it, counts among the calls and takes no
identifier. -/
theorem resolver_cycles (case : CaseMapping) (s : Resolution) (calls : List ResolverCall) :
    (newOver case newIds s (calls.take 65535)).Nodup ∧
    (∀ queryId ∈ newOver case newIds s calls, 1 ≤ queryId ∧ queryId ≤ 65535) ∧
      newOver case newServers s calls =
          (List.range (newOver case newServers s calls).length).map fun count =>
        s.resolver.config.servers[(if s.resolver.config.rotate then s.resolver.nextServer + count else 0) %
          s.resolver.config.servers.length]? :=
  ⟨(newIds_run s (calls.take 65535) (List.length_take_le _ _)).1, newIds_range s calls,
    newServers_run s calls⟩

end Runs

end Dns
end PccGateway
