import PccGateway.Dns.Delivery
import PccGateway.Dns.Resolver

namespace PccGateway
namespace Dns
open Search

/-- Addresses that a policy lets through: canonical ones of the family that was asked for, of classes
that it allows. -/
def Approved (rules : DnsAddressPolicy) (qtype : Int) (values : List Text) : Prop :=
  ∀ address ∈ values, normalizeNumericAddress address qtype = some address ∧
    ∃ bytes, addressBytes address = some bytes ∧ rules.Allows (bytesClass bytes)

/-- A policy that allows the classes that `rules` allows; what it has bound may be different. -/
def Like (rules policy : DnsAddressPolicy) : Prop := ∀ kind, policy.Allows kind ↔ rules.Allows kind

/-- Every entry of the cache has approved addresses. -/
def CacheApproved (rules : DnsAddressPolicy) (cache : DnsCache) : Prop :=
  ∀ key entry, cache.entries.lookup key = some entry → Approved rules key.qtype entry.values

section Policy
variable {case : CaseMapping} {rules policy : DnsAddressPolicy} {qtype : Int}

theorem approved_nil : Approved rules qtype [] := by
  intro address member
  cases member

/-- A canonical address is its own canonical form, also for the family that was asked for. -/
theorem normalize_again {value address : Text}
    (normalized : normalizeNumericAddress value qtype = some address) :
    normalizeNumericAddress address qtype = some address := by
  have stripped (family : AddressFamily) (bytes : List Nat) :=
    strip_plain (canonicalText_plain family bytes)
  unfold normalizeNumericAddress at normalized
  dsimp only at normalized
  split at normalized
  · rename_i bytes found
    obtain ⟨parsed, asked⟩ := Option.filter_eq_some_iff.mp found
    cases normalized
    have plain : strip (ipv4Text bytes) = ipv4Text bytes := stripped .ipv4 bytes
    rw [normalizeNumericAddress, plain, parseIpv4_ipv4Text (parseIpv4_octets parsed),
      Option.filter_some, if_pos asked]
  · obtain ⟨bytes, found, rfl⟩ := Option.map_eq_some_iff.mp normalized
    obtain ⟨parsed, asked⟩ := Option.filter_eq_some_iff.mp found
    have plain : strip (ipv6Text bytes) = ipv6Text bytes := stripped .ipv6 bytes
    rw [normalizeNumericAddress, plain, parseIpv4_ipv6Text,
      parseIpv6_ipv6Text (parseIpv6_octets parsed), Option.filter_some, if_pos asked]
    rfl

theorem accept_like (like : Like rules policy) (call : AcceptCall) :
    Like rules (policy.accept case call).2 := by
  rcases accept_frame case policy call with same | ⟨bound, same⟩
  · rwa [same]
  · rw [same]
    intro kind
    rw [← like kind]
    cases kind <;> rfl

theorem accept_approved (like : Like rules policy) {call : AcceptCall} {values : List Text}
    (accepted : (policy.accept case call).1 = .ok values) : Approved rules call.qtype values := by
  have approved {canonical : List Text} {kinds : List AddressClass}
      (collected : policy.collect call.qtype call.values [] [] = .ok (canonical, kinds)) :
      Approved rules call.qtype canonical := by
    obtain ⟨⟨normals, same, rfl⟩, allowed, -⟩ := collect_addresses collected
    intro address member
    obtain ⟨value, -, bytes, -, back, kind⟩ := allowed address member
    have image : some address ∈ call.values.map (normalizeNumericAddress · call.qtype) := by
      rw [same]
      exact List.mem_map_of_mem (List.mem_eraseDups.mp member)
    obtain ⟨given, -, normal⟩ := List.mem_map.mp image
    exact ⟨normalize_again normal, bytes, back, (like _).mp kind⟩
  obtain ⟨error, same⟩ | ⟨kinds, -, same⟩ | ⟨canonical, kinds, collected, -, same, -⟩ :=
    accept_cases case policy call
  · rw [same] at accepted
    cases accepted
  · rw [same] at accepted
    cases accepted
    exact approved_nil
  · rw [same] at accepted
    cases accepted
    exact approved collected

end Policy

section Cache
variable {case : CaseMapping} {rules : DnsAddressPolicy} {cache : DnsCache}

theorem evict_lookup {order : List CacheKey} {entries : AList (fun _ : CacheKey => DnsCacheEntry)}
    {key : CacheKey} {entry : DnsCacheEntry}
    (found : (evict order entries).2.lookup key = some entry) : entries.lookup key = some entry := by
  induction order with
  | nil => exact found
  | cons oldest order ih =>
    rw [evict] at found
    split at found
    · by_cases same : key = oldest
      · subst same
        simp at found
      · rwa [AList.lookup_erase_ne same] at found
    · exact ih found

/-- An entry behind a `put` is the new one, or it was there before. -/
theorem put_lookup {call : PutCall} {key : CacheKey} {entry : DnsCacheEntry}
    (found : (cache.put case call).2.entries.lookup key = some entry) :
    (key = cacheKey case call.name call.qtype ∧ entry = cache.limits.entry call) ∨
    cache.entries.lookup key = some entry := by
  have kept (there : (if cacheKey case call.name call.qtype ∈ cache.entries then
        (cache.order.erase (cacheKey case call.name call.qtype), cache.entries)
      else if cache.limits.maxEntries ≤ cache.entries.keys.length then evict cache.order cache.entries
      else (cache.order, cache.entries)).2.lookup key = some entry) : cache.entries.lookup key =
        some entry := by
    split at there
    · exact there
    · split at there
      · exact evict_lookup there
      · exact there
  by_cases same : key = cacheKey case call.name call.qtype
  · subst same
    have new : (cache.put case call).2.entries.lookup (cacheKey case call.name call.qtype) =
        some (cache.limits.entry call) :=
      AList.lookup_insert _
    rw [new] at found
    exact .inl ⟨rfl, (Option.some.inj found).symm⟩
  · exact .inr (kept ((AList.lookup_insert_ne same).symm.trans found))

theorem put_approved (approved : CacheApproved rules cache) {call : PutCall}
    (given : Approved rules call.qtype call.values) :
    CacheApproved rules (cache.put case call).2 := by
  intro key entry found
  rcases put_lookup found with ⟨rfl, rfl⟩ | old
  · exact given
  · exact approved key entry old

theorem get_approved (approved : CacheApproved rules cache) (name : Text) (qtype nowMs : Int) :
    CacheApproved rules (cache.get case name qtype nowMs).2 ∧
      ∀ entry, (cache.get case name qtype nowMs).1 = some entry → Approved rules qtype entry.values := by
  obtain ⟨-, same⟩ | ⟨entry, -, -, same⟩ | ⟨entry, found, -, same⟩ := get_cases case cache name qtype nowMs
  · rw [same]
    exact ⟨approved, by rintro _ ⟨⟩⟩
  · rw [same]
    refine ⟨fun key other there => ?_, by rintro _ ⟨⟩⟩
    by_cases here : key = cacheKey case name qtype
    · subst here
      simp at there
    · exact approved key other (by rwa [AList.lookup_erase_ne here] at there)
  · rw [same]
    refine ⟨approved, ?_⟩
    rintro _ ⟨⟩
    exact approved _ entry found

end Cache

/-- An operation that was begun for a query type and has seen only what the rules let through. -/
structure OperationApproved (rules : DnsAddressPolicy) (qtype : Int) (operation : ResolveOperation) :
    Prop where
  asked : operation.qtype = qtype
  like : Like rules operation.policy
  cache : CacheApproved rules operation.cache
  values : Approved rules qtype operation.values

structure DriverApproved (rules : DnsAddressPolicy) (qtype : Int) (driver : DnsResolveDriver) : Prop where
  operation : OperationApproved rules qtype driver.operation
  values : Approved rules qtype driver.values

/-- A step of a driver that gives nothing else either. -/
structure StepApproved (rules : DnsAddressPolicy) (qtype : Int)
    (outcome : Except StepExn DnsDriveResult × DnsResolveDriver) : Prop where
  driver : DriverApproved rules qtype outcome.2
  given : ∀ result, outcome.1 = .ok result → Approved rules qtype result.values

section Operation
variable {case : CaseMapping} {rules : DnsAddressPolicy} {qtype : Int} {operation : ResolveOperation}

theorem OperationApproved.negative (approved : OperationApproved rules qtype operation) (nowMs : Int) :
    CacheApproved rules (operation.cache.put case (operation.negative nowMs)).2 :=
  put_approved approved.cache approved_nil

theorem OperationApproved.receiveAnswers (approved : OperationApproved rules qtype operation)
    (response : DnsResponse) (nowMs : Int) :
    OperationApproved rules qtype (operation.receiveAnswers case response nowMs).2 := by
  unfold ResolveOperation.receiveAnswers
  split
  · exact approved
  · rename_i values ttl found
    split
    · exact ⟨approved.asked, approved.like, approved.negative nowMs, approved.values⟩
    · have like : Like rules (operation.policy.accept case
          { name := operation.name, values, qtype := operation.qtype }).2 :=
        accept_like approved.like _
      split
      · rename_i refused
        rw [refused] at like
        exact ⟨approved.asked, like, approved.cache, approved.values⟩
      · rename_i accepted
        rw [accepted] at like
        have given := accept_approved approved.like (congrArg Prod.fst accepted)
        exact ⟨approved.asked, like, put_approved approved.cache given, approved.asked ▸ given⟩

theorem OperationApproved.receive (approved : OperationApproved rules qtype operation)
    (payload : Bytes) (nowMs : Int) :
    OperationApproved rules qtype (operation.receive case payload nowMs).2 := by
  unfold ResolveOperation.receive
  split
  · exact approved
  split
  · unfold ResolveOperation.checkDeadline
    split
    · exact ⟨approved.asked, approved.like, approved.cache, approved.values⟩
    · exact approved
  split
  · exact approved
  split
  · exact approved
  unfold ResolveOperation.receiveResponse
  split
  · exact ⟨approved.asked, approved.like, approved.cache, approved.values⟩
  split
  · exact ⟨approved.asked, approved.like, approved.negative nowMs, approved.values⟩
  split
  · exact approved
  · exact approved.receiveAnswers _ nowMs

theorem OperationApproved.cancel (approved : OperationApproved rules qtype operation) :
    OperationApproved rules qtype operation.cancel := by
  unfold ResolveOperation.cancel
  split
  · exact approved
  · exact ⟨approved.asked, approved.like, approved.cache, approved.values⟩

end Operation

section Driver
variable {case : CaseMapping} {rules : DnsAddressPolicy} {qtype : Int} {driver : DnsResolveDriver}

theorem close_values : driver.close.values = driver.values := by
  unfold DnsResolveDriver.close
  split <;> rfl

/-- Only the operation and the values matter. -/
theorem DriverApproved.same {other : DnsResolveDriver} (approved : DriverApproved rules qtype driver)
    (operation : other.operation = driver.operation)
    (values : other.values = driver.values) : DriverApproved rules qtype other :=
  ⟨operation ▸ approved.operation, values ▸ approved.values⟩

/-- A result without addresses. -/
theorem DriverApproved.quiet {result : DnsDriveResult} (approved : DriverApproved rules qtype driver)
    (none : result.values = []) :
    StepApproved rules qtype (DnsResolveDriver.returning (result, driver)) := by
  refine ⟨approved, ?_⟩
  rintro _ ⟨⟩
  rw [none]
  exact approved_nil

theorem DriverApproved.finished (approved : DriverApproved rules qtype driver) :
    Approved rules qtype driver.finished.values := by
  unfold DnsResolveDriver.finished
  split <;> exact approved.values

theorem DriverApproved.terminal (approved : DriverApproved rules qtype driver) (error : String) :
    StepApproved rules qtype (DnsResolveDriver.returning (driver.terminal error)) := by
  have after : DriverApproved rules qtype (driver.terminate error) := by
    unfold DnsResolveDriver.terminate
    dsimp only
    split
    · refine ⟨?_, ?_⟩
      swap
      · dsimp only
        rw [close_values]
        exact approved.values
      dsimp only
      rw [close_operation]
      split
      · exact approved.operation
      · exact ⟨approved.operation.asked, approved.operation.like, approved.operation.cache,
          approved.operation.values⟩
    · refine ⟨?_, ?_⟩
      · dsimp only
        rw [close_operation]
        exact approved.operation
      · dsimp only
        rw [close_operation]
        exact approved.operation.values
  refine ⟨after, ?_⟩
  rintro _ ⟨⟩
  exact after.finished

theorem DriverApproved.retry (approved : DriverApproved rules qtype driver) (error : String) (nowMs : Int) :
    StepApproved rules qtype (DnsResolveDriver.returning (driver.retry error nowMs)) := by
  have closed : DriverApproved rules qtype { driver.close with lastError := error, attempt :=
      driver.attempt + 1 } :=
    approved.same close_operation close_values
  unfold DnsResolveDriver.retry
  dsimp only
  split
  · exact closed.terminal _
  split
  · exact closed.terminal _
  · exact DriverApproved.quiet (closed.same rfl rfl) rfl

theorem DriverApproved.invalid (approved : DriverApproved rules qtype driver) (code : String)
    (nowMs : Int) (tcp : Bool) :
    StepApproved rules qtype (DnsResolveDriver.returning (driver.invalid code nowMs tcp)) := by
  have counted : DriverApproved rules qtype
      { driver with invalidReplies := driver.invalidReplies + 1 } := approved.same rfl rfl
  unfold DnsResolveDriver.invalid
  dsimp only
  split
  · exact counted.retry code nowMs
  · exact counted.quiet rfl

theorem DriverApproved.received (approved : DriverApproved rules qtype driver) (nowMs : Int) (tcp : Bool)
    {outcome : Except DnsExn (Option Bytes) × ResolveOperation}
    (operation : OperationApproved rules qtype outcome.2) :
    StepApproved rules qtype (driver.received nowMs tcp outcome) := by
  have next : DriverApproved rules qtype { driver with operation := outcome.2 } :=
    ⟨operation, approved.values⟩
  unfold DnsResolveDriver.received
  dsimp only
  split
  · exact next.invalid _ _ _
  · exact ⟨next, by rintro _ ⟨⟩⟩
  · split
    · exact DriverApproved.quiet (next.same close_operation close_values) rfl
    · exact next.terminal _

theorem DriverApproved.stepOpen (approved : DriverApproved rules qtype driver) (nowMs : Int)
    (observed : DnsIoResult) :
    StepApproved rules qtype (DnsResolveDriver.returning (driver.stepOpen nowMs observed)) := by
  unfold DnsResolveDriver.stepOpen
  dsimp only
  split
  · refine DriverApproved.retry ?_ _ _
    exact approved.same rfl rfl
  · exact DriverApproved.quiet (approved.same rfl rfl) rfl

theorem DriverApproved.stepConnect (approved : DriverApproved rules qtype driver) (nowMs : Int)
    (observed : DnsIoResult) :
    StepApproved rules qtype (DnsResolveDriver.returning (driver.stepConnect nowMs observed)) := by
  unfold DnsResolveDriver.stepConnect
  split
  · exact approved.quiet rfl
  · exact DriverApproved.quiet (approved.same rfl rfl) rfl
  · exact approved.retry _ _
  · exact approved.retry _ _

theorem DriverApproved.stepSend (approved : DriverApproved rules qtype driver) (nowMs : Int)
    (observed : DnsIoResult) :
    StepApproved rules qtype (DnsResolveDriver.returning (driver.stepSend nowMs observed)) := by
  unfold DnsResolveDriver.stepSend
  split
  · exact approved.quiet rfl
  · exact approved.retry _ _
  · exact approved.retry _ _
  · dsimp only
    split
    · exact approved.retry _ _
    split
    · exact approved.retry _ _
    split <;> exact DriverApproved.quiet (approved.same rfl rfl) rfl

theorem DriverApproved.stepReceive (approved : DriverApproved rules qtype driver) (nowMs : Int)
    (observed : DnsIoResult) :
    StepApproved rules qtype (driver.stepReceive case nowMs observed) := by
  unfold DnsResolveDriver.stepReceive
  split
  · exact approved.quiet rfl
  · exact approved.retry _ _
  · exact approved.retry _ _
  split
  · exact approved.retry _ _
  split
  · exact approved.retry _ _
  split
  · unfold DnsResolveDriver.receiveUdp
    split
    · exact approved.invalid _ _ _
    · exact approved.received _ _ (approved.operation.receive _ _)
  · unfold DnsResolveDriver.receiveTcp
    split
    · exact approved.invalid _ _ _
    dsimp only
    split
    · refine DriverApproved.retry ?_ _ _
      exact approved.same rfl rfl
    split
    · refine DriverApproved.retry ?_ _ _
      exact approved.same rfl rfl
    split
    · exact DriverApproved.quiet (approved.same rfl rfl) rfl
    · refine DriverApproved.received ?_ _ _ (approved.operation.receive _ _)
      exact approved.same rfl rfl

theorem DriverApproved.observe (approved : DriverApproved rules qtype driver) (call : TransportCall)
    (observed : Option DnsIoResult)
    {next : DnsResolveDriver → DnsIoResult → Except StepExn DnsDriveResult × DnsResolveDriver}
    (goes : ∀ seen, DriverApproved rules qtype (driver.called call) →
      StepApproved rules qtype (next (driver.called call) seen)) :
    StepApproved rules qtype (driver.observe call observed next) := by
  have called : DriverApproved rules qtype (driver.called call) := approved.same rfl rfl
  unfold DnsResolveDriver.observe
  split
  · exact ⟨called, by rintro _ ⟨⟩⟩
  · exact goes _ called

theorem DriverApproved.step (approved : DriverApproved rules qtype driver) (nowMs : Int)
    (transport : Transport) :
    StepApproved rules qtype (driver.step case nowMs transport) := by
  unfold DnsResolveDriver.step
  split
  · refine ⟨approved, ?_⟩
    rintro _ ⟨⟩
    exact approved.finished
  split
  · exact approved.terminal _
  split
  · exact approved.terminal _
  split
  · exact approved.retry _ _
  unfold DnsResolveDriver.stepState
  split
  · exact approved.stepOpen _ _
  · exact approved.observe _ _ fun seen called => called.stepConnect nowMs seen
  · exact approved.observe _ _ fun seen called => called.stepSend nowMs seen
  · exact approved.observe _ _ fun seen called => called.stepReceive nowMs seen

theorem DriverApproved.cancel (approved : DriverApproved rules qtype driver) :
    StepApproved rules qtype (DnsResolveDriver.returning driver.cancel) := by
  unfold DnsResolveDriver.cancel
  split
  · exact approved.terminal _
  · have cancelled : DriverApproved rules qtype { driver with operation := driver.operation.cancel } :=
      ⟨approved.operation.cancel, approved.values⟩
    exact cancelled.terminal _

end Driver

structure ResolverApproved (rules : DnsAddressPolicy) (resolver : Resolver) : Prop where
  like : Like rules resolver.policy
  cache : CacheApproved rules resolver.cache

def ResolverDriver.Approved (rules : DnsAddressPolicy) (qtype : Int) : ResolverDriver → Prop
  | .answered driver => Dns.Approved rules qtype driver.values
  | .asking driver => DriverApproved rules qtype driver

structure ResolutionApproved (rules : DnsAddressPolicy) (s : Resolution) : Prop where
  resolver : ResolverApproved rules s.resolver
  drivers : ∀ begun ∈ s.drivers, begun.2.Approved rules begun.1
  operations : ∀ operation ∈ s.operations, OperationApproved rules operation.qtype operation

section Resolver
variable {case : CaseMapping} {rules : DnsAddressPolicy} {resolver : Resolver} {name : Text}
  {qtype nowMs deadlineMs : Int}

theorem ResolverApproved.allocate (approved : ResolverApproved rules resolver) :
    ResolverApproved rules (resolver.allocateOperation case name qtype deadlineMs).2 ∧
      ∀ operation, (resolver.allocateOperation case name qtype deadlineMs).1 = .ok operation →
      OperationApproved rules qtype operation := by
  refine ⟨⟨approved.like, approved.cache⟩, fun operation allocated => ?_⟩
  have made : newOperation case resolver.nextQueryId name qtype deadlineMs resolver.cache
      resolver.policy = .ok operation := allocated
  unfold newOperation at made
  cases query : buildQuery case resolver.nextQueryId (case.canonical name) qtype with
  | error error => simp [query, bind, Except.bind] at made
  | ok query' =>
    simp only [query, bind, Except.bind, pure, Except.pure, Except.ok.injEq] at made
    subst made
    exact ⟨rfl, approved.like, approved.cache, approved_nil⟩

theorem newDriver_approved {operation : ResolveOperation}
    (approved : OperationApproved rules qtype operation) (config : DnsResolverConfig)
    (startServer : Int) (terminalError : String) :
    DriverApproved rules qtype (newDriver operation config nowMs startServer terminalError) := by
  unfold newDriver
  dsimp only
  split
  · exact ⟨approved, approved_nil⟩
  split <;> exact ⟨approved, approved_nil⟩

theorem checkDeadline_approved {operation : ResolveOperation}
    (approved : OperationApproved rules qtype operation) :
    OperationApproved rules qtype (operation.checkDeadline nowMs) := by
  unfold ResolveOperation.checkDeadline
  split
  · exact ⟨approved.asked, approved.like, approved.cache, approved.values⟩
  · exact approved

theorem ResolverApproved.acceptKnown (approved : ResolverApproved rules resolver) (values : List Text)
    (source : String) :
    ResolverApproved rules (resolver.acceptKnown case name qtype values source).2 ∧
      ∀ driver, (resolver.acceptKnown case name qtype values source).1 = .ok driver →
      driver.Approved rules qtype := by
  refine ⟨⟨accept_like approved.like _, approved.cache⟩, fun driver known => ?_⟩
  unfold Resolver.acceptKnown at known
  dsimp only at known
  cases accepted : (resolver.policy.accept case { name, values, qtype }).1 with
  | error error => simp [accepted, Except.map] at known
  | ok values' =>
    simp only [accepted, Except.map, Except.ok.injEq] at known
    subst known
    exact accept_approved approved.like accepted

theorem ResolverApproved.cached (approved : ResolverApproved rules resolver) :
    ResolverApproved rules { resolver with cache := (resolver.cache.get case name qtype nowMs).2 } :=
  ⟨approved.like, (get_approved approved.cache name qtype nowMs).1⟩

theorem ResolverApproved.startQuery (approved : ResolverApproved rules resolver) :
    ResolverApproved rules (resolver.startQuery case name qtype nowMs deadlineMs).2 ∧
      ∀ driver, (resolver.startQuery case name qtype nowMs deadlineMs).1 = .ok driver →
      driver.Approved rules qtype := by
  obtain ⟨after, begun⟩ := @ResolverApproved.allocate case rules resolver name qtype deadlineMs approved
  unfold Resolver.startQuery
  generalize resolver.allocateOperation case name qtype deadlineMs = allocated at after begun
  obtain ⟨outcome, next⟩ := allocated
  cases outcome with
  | error error => exact ⟨after, by rintro _ ⟨⟩⟩
  | ok operation =>
    refine ⟨⟨after.like, after.cache⟩, ?_⟩
    rintro _ ⟨⟩
    exact newDriver_approved (begun operation rfl) _ _ _

theorem ResolverApproved.startExpired (approved : ResolverApproved rules resolver) :
    ResolverApproved rules (resolver.startExpired case name qtype nowMs deadlineMs).2 ∧
      ∀ driver, (resolver.startExpired case name qtype nowMs deadlineMs).1 = .ok driver →
      driver.Approved rules qtype := by
  obtain ⟨after, begun⟩ := @ResolverApproved.allocate case rules resolver name qtype deadlineMs approved
  unfold Resolver.startExpired
  generalize resolver.allocateOperation case name qtype deadlineMs = allocated at after begun
  obtain ⟨outcome, next⟩ := allocated
  refine ⟨after, ?_⟩
  cases outcome with
  | error error => rintro _ ⟨⟩
  | ok operation =>
    rintro _ ⟨⟩
    exact newDriver_approved (checkDeadline_approved (begun operation rfl)) _ _ _

theorem ResolverApproved.begin (approved : ResolverApproved rules resolver) :
    ResolverApproved rules (resolver.begin case name qtype nowMs deadlineMs).2 ∧
      (∀ entry, (resolver.begin case name qtype nowMs deadlineMs).1 = .ok (.cached entry) →
        Approved rules qtype entry.values) ∧
      ∀ operation, (resolver.begin case name qtype nowMs deadlineMs).1 = .ok (.operation operation) →
        OperationApproved rules qtype operation := by
  have kept : ResolverApproved rules
      { resolver with cache := (resolver.cache.get case name qtype nowMs).2 } := approved.cached
  have given : ∀ entry, (resolver.cache.get case name qtype nowMs).1 = some entry →
      Approved rules qtype entry.values :=
    (get_approved approved.cache name qtype nowMs).2
  unfold Resolver.begin
  split
  · rename_i entry cache found
    rw [found] at kept given
    refine ⟨kept, ?_, by rintro _ ⟨⟩⟩
    rintro _ ⟨⟩
    exact given entry rfl
  · rename_i cache found
    rw [found] at kept
    obtain ⟨after, begun⟩ := @ResolverApproved.allocate case rules _ name qtype deadlineMs kept
    generalize Resolver.allocateOperation case { resolver with cache } name qtype deadlineMs =
      allocated at after begun
    obtain ⟨outcome, next⟩ := allocated
    refine ⟨after, ?_, ?_⟩
    · cases outcome <;> rintro _ ⟨⟩
    · cases outcome with
      | error error => rintro _ ⟨⟩
      | ok operation =>
        rintro _ ⟨⟩
        exact begun operation rfl

theorem ResolverApproved.beginDriver (approved : ResolverApproved rules resolver) :
    ResolverApproved rules (resolver.beginDriver case name qtype nowMs deadlineMs).2 ∧
      ∀ driver, (resolver.beginDriver case name qtype nowMs deadlineMs).1 = .ok driver →
      driver.Approved rules qtype := by
  unfold Resolver.beginDriver
  split
  · exact ⟨approved, by rintro _ ⟨⟩⟩
  split
  · exact approved.startExpired
  split
  · exact approved.acceptKnown _ _
  split
  · exact approved.acceptKnown _ _
  have kept : ResolverApproved rules
      { resolver with cache := (resolver.cache.get case name qtype nowMs).2 } := approved.cached
  have given : ∀ entry, (resolver.cache.get case name qtype nowMs).1 = some entry →
      Approved rules qtype entry.values :=
    (get_approved approved.cache name qtype nowMs).2
  split
  · rename_i entry cache found
    rw [found] at kept given
    refine ⟨kept, ?_⟩
    rintro _ ⟨⟩
    unfold Resolver.cachedDriver ResolverDriver.Approved
    dsimp only
    split
    · exact approved_nil
    · exact given entry rfl
  · rename_i cache found
    rw [found] at kept
    exact kept.startQuery

theorem ResolverApproved.share (approved : ResolverApproved rules resolver) {operation : ResolveOperation}
    (begun : OperationApproved rules qtype operation) :
    OperationApproved rules qtype (resolver.share operation) :=
  ⟨begun.asked, approved.like, approved.cache, begun.values⟩

theorem OperationApproved.shared {operation : ResolveOperation}
    (begun : OperationApproved rules qtype operation) :
    ResolverApproved rules (resolver.shared operation) := ⟨begun.like, begun.cache⟩

end Resolver

theorem answered_result (driver : AnsweredDriver) : driver.result.values = driver.values := by
  unfold AnsweredDriver.result
  split <;> rfl

theorem ResolutionApproved.setDriver {rules : DnsAddressPolicy} {s : Resolution}
    (approved : ResolutionApproved rules s) {index : Nat}
    {qtype : Int} {driver : DnsResolveDriver} (next : DriverApproved rules qtype driver) :
    ∀ begun ∈ s.drivers.set index (qtype, .asking driver), begun.2.Approved rules begun.1 := by
  intro begun member
  rcases List.mem_or_eq_of_mem_set member with old | rfl
  · exact approved.drivers begun old
  · exact next

theorem ResolutionApproved.setOperation {rules : DnsAddressPolicy} {s : Resolution}
    (approved : ResolutionApproved rules s) {index : Nat}
    {qtype : Int} {operation : ResolveOperation} (next : OperationApproved rules qtype operation) :
    ∀ begun ∈ s.operations.set index operation, OperationApproved rules begun.qtype begun := by
  intro begun member
  rcases List.mem_or_eq_of_mem_set member with old | rfl
  · exact approved.operations begun old
  · rwa [next.asked]

/-- One call gives approved addresses only, and leaves everything approved. -/
theorem ResolutionApproved.call {case : CaseMapping} {rules : DnsAddressPolicy} {s : Resolution}
    (approved : ResolutionApproved rules s)
    (call : ResolverCall) : ResolutionApproved rules (s.call case call).2 ∧
      ∀ given, (s.call case call).1 = some given → Approved rules given.qtype given.values := by
  cases call with
  | begin name qtype nowMs deadlineMs =>
    obtain ⟨after, cached, begun⟩ :=
      @ResolverApproved.begin case rules s.resolver name qtype nowMs deadlineMs approved.resolver
    unfold Resolution.call
    dsimp only
    generalize s.resolver.begin case name qtype nowMs deadlineMs = outcome at after cached begun
    obtain ⟨result, resolver⟩ := outcome
    cases result with
    | error error => exact ⟨⟨after, approved.drivers, approved.operations⟩, by rintro _ ⟨⟩⟩
    | ok result =>
      cases result with
      | cached entry =>
        refine ⟨⟨after, approved.drivers, approved.operations⟩, ?_⟩
        rintro _ ⟨⟩
        exact cached entry rfl
      | operation operation =>
        refine ⟨⟨after, approved.drivers, fun other member => ?_⟩, by rintro _ ⟨⟩⟩
        rcases List.mem_append.mp member with old | new
        · exact approved.operations other old
        · obtain rfl := List.mem_singleton.mp new
          have isBegun := begun other rfl
          rwa [isBegun.asked]
  | beginDriver name qtype nowMs deadlineMs =>
    obtain ⟨after, begun⟩ :=
      @ResolverApproved.beginDriver case rules s.resolver name qtype nowMs deadlineMs approved.resolver
    unfold Resolution.call
    dsimp only
    generalize s.resolver.beginDriver case name qtype nowMs deadlineMs = outcome at after begun
    obtain ⟨result, resolver⟩ := outcome
    cases result with
    | error error => exact ⟨⟨after, approved.drivers, approved.operations⟩, by rintro _ ⟨⟩⟩
    | ok driver =>
      refine ⟨⟨after, fun other member => ?_, approved.operations⟩, by rintro _ ⟨⟩⟩
      rcases List.mem_append.mp member with old | new
      · exact approved.drivers other old
      · obtain rfl := List.mem_singleton.mp new
        exact begun driver rfl
  | step index nowMs transport =>
    unfold Resolution.call
    dsimp only
    split
    · exact ⟨approved, by rintro _ ⟨⟩⟩
    · rename_i qtype driver found
      refine ⟨approved, ?_⟩
      rintro _ ⟨⟩
      dsimp only
      rw [answered_result]
      exact approved.drivers _ (List.mem_of_getElem? found)
    · rename_i qtype driver found
      have begun : DriverApproved rules qtype driver := approved.drivers _ (List.mem_of_getElem? found)
      have sharing : DriverApproved rules qtype
          { driver with operation := s.resolver.share driver.operation } :=
        ⟨approved.resolver.share begun.operation, begun.values⟩
      have stepped := @DriverApproved.step case rules qtype _ sharing nowMs transport
      generalize DnsResolveDriver.step case { driver with operation := s.resolver.share driver.operation }
        nowMs transport = outcome at stepped
      obtain ⟨result, driver'⟩ := outcome
      refine ⟨⟨stepped.driver.operation.shared, approved.setDriver stepped.driver,
        approved.operations⟩, fun given gives => ?_⟩
      cases result with
      | error error => cases gives
      | ok result =>
        cases gives
        exact stepped.given result rfl
  | cancelDriver index =>
    unfold Resolution.call
    dsimp only
    split
    · exact ⟨approved, by rintro _ ⟨⟩⟩
    · rename_i qtype driver found
      refine ⟨approved, ?_⟩
      rintro _ ⟨⟩
      dsimp only
      rw [answered_result]
      exact approved.drivers _ (List.mem_of_getElem? found)
    · rename_i qtype driver found
      have begun : DriverApproved rules qtype driver := approved.drivers _ (List.mem_of_getElem? found)
      have cancelled := begun.cancel
      refine ⟨⟨approved.resolver, approved.setDriver cancelled.driver, approved.operations⟩, ?_⟩
      rintro _ ⟨⟩
      exact cancelled.given _ rfl
  | receive index payload nowMs =>
    unfold Resolution.call
    dsimp only
    split
    · exact ⟨approved, by rintro _ ⟨⟩⟩
    · rename_i operation found
      have begun := approved.operations _ (List.mem_of_getElem? found)
      have received :=
        @OperationApproved.receive case rules _ _ (approved.resolver.share begun) payload nowMs
      refine ⟨⟨received.shared, approved.drivers, approved.setOperation received⟩, ?_⟩
      rintro _ ⟨⟩
      dsimp only
      rw [received.asked]
      exact received.values
  | cancelOperation index =>
    unfold Resolution.call
    dsimp only
    split
    · exact ⟨approved, by rintro _ ⟨⟩⟩
    · rename_i operation found
      have begun := approved.operations _ (List.mem_of_getElem? found)
      exact ⟨⟨approved.resolver, approved.drivers, approved.setOperation begun.cancel⟩, by rintro _ ⟨⟩⟩

theorem ResolutionApproved.given {case : CaseMapping} {rules : DnsAddressPolicy} {s : Resolution}
    (approved : ResolutionApproved rules s) (calls : List ResolverCall) :
    ∀ given ∈ Resolution.given case s calls, Approved rules given.qtype given.values := by
  induction calls generalizing s with
  | nil =>
    intro given member
    cases member
  | cons call calls ih =>
    obtain ⟨after, gives⟩ := @ResolutionApproved.call case rules s approved call
    intro given member
    rcases List.mem_append.mp member with now | later
    · exact gives given (Option.mem_toList.mp now)
    · exact ih after given later

/-- In every run of a resolver, whatever the order of the calls and whatever the network answers,
each address that a call gives is a canonical address of the family that was asked for, and of a
class that the policy allows. It does not matter whether the address was written in the name, or
came from the hosts file, from the cache or from a reply. What is assumed is that the cache which
the constructor was given has only such addresses, as an empty cache does. Nothing is assumed about
the hosts file, the configuration and the clock. -/
theorem resolver_policy (case : CaseMapping) (resolver : Resolver)
    (approved : CacheApproved resolver.policy resolver.cache) (calls : List ResolverCall) :
    ∀ given ∈ Resolution.given case { resolver } calls,
      Approved resolver.policy given.qtype given.values := by
  refine ResolutionApproved.given
    ⟨⟨fun _ => Iff.rfl, approved⟩, fun _ member => ?_, fun _ member => ?_⟩ calls
  · cases member
  · cases member

def emptyHosts : HostsTable := { accepted := by decide }

/-- A resolver that asks one server, and begins with the query id 7. -/
def oneServerResolver : Resolver where
  cache := askAb.cache
  config := { oneServer false with }
  hosts := emptyHosts
  policy := {}
  nextQueryId := 7
  seeded := by decide

/-- The name `a.b` is asked for twice: the reply of the server is given to the first driver, and from
the cache to the second. -/
def askTwice : List ResolverCall :=
  [.beginDriver "a.b".toList 1 0 5000, .step 0 1 (ready [] 21), .step 0 2 (ready [] 21),
    .step 0 3 (ready [] 21),
    .step 0 4 (ready abReply 21), .beginDriver "a.b".toList 1 5 5000, .step 1 6 (ready [] 21)]

theorem resolver_policy_askTwice :
    (Resolution.given latin1Mapping { resolver := oneServerResolver } askTwice).map Given.values =
        [[], [], [], ["8.8.8.8".toList], ["8.8.8.8".toList]] ∧
      ∀ given ∈ Resolution.given latin1Mapping { resolver := oneServerResolver } askTwice,
        Approved oneServerResolver.policy given.qtype given.values := by
  refine ⟨by decide,
    resolver_policy latin1Mapping oneServerResolver (fun key entry found => ?_) askTwice⟩
  cases found

end Dns
end PccGateway
