import PccGateway.Dns.SystemFiles

namespace PccGateway
namespace Dns

/-- The query id behind one. -/
def nextId (queryId : Nat) : Nat :=
  let next := (queryId + 1) &&& 65535
  if next = 0 then 1 else next

theorem nextId_range (queryId : Nat) : 1 ≤ nextId queryId ∧ nextId queryId ≤ 65535 := by
  have bound : (queryId + 1) &&& 65535 ≤ 65535 := Nat.and_le_right
  unfold nextId
  dsimp only
  split <;> omega

/-- A resolver that the constructor of `Resolver` accepts. -/
structure Resolver where
  cache : DnsCache
  config : ResolverConfig
  hosts : HostsTable
  policy : DnsAddressPolicy
  nextQueryId : Nat
  nextServer : Nat := 0
  seeded : 1 ≤ nextQueryId ∧ nextQueryId ≤ 65535

/-- A driver that was constructed without an operation: it is done, and a step or a `cancel` gives its
result again. -/
structure AnsweredDriver where
  values : List Text
  source : String
  error : String := ""

def AnsweredDriver.result (driver : AnsweredDriver) : DnsDriveResult :=
  if driver.error ≠ "" then
    { kind := .error, values := driver.values, source := driver.source, error := driver.error }
  else { kind := .complete, values := driver.values, source := driver.source }

/-- A driver that `begin_driver` returns. -/
inductive ResolverDriver where
  | answered (driver : AnsweredDriver)
  | asking (driver : DnsResolveDriver)

/-- What `begin` returns. -/
inductive Begun where
  | cached (entry : DnsCacheEntry)
  | operation (operation : ResolveOperation)

namespace Resolver

/-- `_allocate_operation`. The query id is used up even when the constructor of the operation raises. -/
def allocateOperation (case : CaseMapping) (resolver : Resolver) (name : Text) (qtype deadlineMs : Int) :
    Except DnsExn ResolveOperation × Resolver :=
  (newOperation case resolver.nextQueryId name qtype deadlineMs resolver.cache resolver.policy,
    { resolver with nextQueryId := nextId resolver.nextQueryId, seeded := nextId_range _ })

def begin (case : CaseMapping) (resolver : Resolver) (name : Text) (qtype nowMs deadlineMs : Int) :
    Except DnsExn Begun × Resolver :=
  match resolver.cache.get case name qtype nowMs with
  | (some cached, cache) => (.ok (.cached cached), { resolver with cache })
  | (none, cache) =>
    let (outcome, resolver) := { resolver with cache }.allocateOperation case name qtype deadlineMs
    (outcome.map .operation, resolver)

/-- The driver for addresses that are known without a query, once the policy has seen them. -/
def acceptKnown (case : CaseMapping) (resolver : Resolver) (name : Text) (qtype : Int)
    (values : List Text) (source : String) :
    Except DnsExn ResolverDriver × Resolver :=
  let (outcome, policy) := resolver.policy.accept case { name, values, qtype }
  (outcome.map fun values => .answered { values, source }, { resolver with policy })

/-- The driver for an entry of the cache. -/
def cachedDriver (cached : DnsCacheEntry) : ResolverDriver :=
  .answered {
    values := if cached.negative then [] else cached.values
    source := "cache"
    error := if cached.negative then "cached-negative" else "" }

/-- The end of `begin_driver`: a query is needed. -/
def startQuery (case : CaseMapping) (resolver : Resolver) (name : Text) (qtype nowMs deadlineMs : Int) :
    Except DnsExn ResolverDriver × Resolver :=
  let (outcome, resolver) := resolver.allocateOperation case name qtype deadlineMs
  match outcome with
  | .error error => (.error error, resolver)
  | .ok operation =>
    let startServer := if resolver.config.rotate then resolver.nextServer else 0
    let nextServer :=
      if resolver.config.servers ≠ [] ∧ resolver.config.rotate then
        (resolver.nextServer + 1) % resolver.config.servers.length
      else resolver.nextServer
    (.ok (.asking (newDriver operation resolver.config.toDnsResolverConfig nowMs startServer "")),
      { resolver with nextServer })

/-- The driver of a call whose deadline has passed. -/
def startExpired (case : CaseMapping) (resolver : Resolver) (name : Text) (qtype nowMs deadlineMs : Int) :
    Except DnsExn ResolverDriver × Resolver :=
  let (outcome, resolver) := resolver.allocateOperation case name qtype deadlineMs
  (outcome.map fun operation =>
    .asking (newDriver (operation.checkDeadline nowMs) resolver.config.toDnsResolverConfig nowMs 0
      "timeout"), resolver)

def beginDriver (case : CaseMapping) (resolver : Resolver) (name : Text) (qtype nowMs deadlineMs : Int) :
    Except DnsExn ResolverDriver × Resolver :=
  if qtype ≠ dnsA ∧ qtype ≠ dnsAaaa then (.error (.value "gateway resolver supports A and AAAA"), resolver)
  else if deadlineMs ≤ nowMs then resolver.startExpired case name qtype nowMs deadlineMs
  else
    match normalizeNumericAddress name qtype with
    | some numeric => resolver.acceptKnown case name qtype [numeric] "numeric"
    | none =>
      match resolver.hosts.lookup case name qtype with
      | some values => resolver.acceptKnown case name qtype values "hosts"
      | none =>
        match resolver.cache.get case name qtype nowMs with
        | (some cached, cache) => (.ok (cachedDriver cached), { resolver with cache })
        | (none, cache) => { resolver with cache }.startQuery case name qtype nowMs deadlineMs

/-- The cache and the policy are objects that the operations share with the resolver. -/
def share (resolver : Resolver) (operation : ResolveOperation) : ResolveOperation :=
  { operation with cache := resolver.cache, policy := resolver.policy }

/-- The resolver after an operation has used what it shares. -/
def shared (resolver : Resolver) (operation : ResolveOperation) : Resolver :=
  { resolver with cache := operation.cache, policy := operation.policy }

end Resolver

/-- A resolver with what it has begun: each driver with the query type that it was begun for, and the
operations of `begin`. -/
structure Resolution where
  resolver : Resolver
  drivers : List (Int × ResolverDriver) := []
  operations : List ResolveOperation := []

/-- The calls on a resolver and on what it has begun. -/
inductive ResolverCall where
  | begin (name : Text) (qtype nowMs deadlineMs : Int)
  | beginDriver (name : Text) (qtype nowMs deadlineMs : Int)
  | step (index : Nat) (nowMs : Int) (transport : Transport)
  | cancelDriver (index : Nat)
  | receive (index : Nat) (payload : Bytes) (nowMs : Int)
  | cancelOperation (index : Nat)

/-- Addresses that a call gave, and the query type that they were asked for with. -/
structure Given where
  qtype : Int
  values : List Text

namespace Resolution

/-- One call, with the addresses that it gives. -/
def call (case : CaseMapping) (s : Resolution) : ResolverCall → Option Given × Resolution
  | .begin name qtype nowMs deadlineMs =>
    match s.resolver.begin case name qtype nowMs deadlineMs with
    | (.ok (.cached entry), resolver) => (some ⟨qtype, entry.values⟩, { s with resolver })
    | (.ok (.operation operation), resolver) =>
      (none, { s with resolver, operations := s.operations ++ [operation] })
    | (.error _, resolver) => (none, { s with resolver })
  | .beginDriver name qtype nowMs deadlineMs =>
    match s.resolver.beginDriver case name qtype nowMs deadlineMs with
    | (.ok driver, resolver) => (none, { s with resolver, drivers := s.drivers ++ [(qtype, driver)] })
    | (.error _, resolver) => (none, { s with resolver })
  | .step index nowMs transport =>
    match s.drivers[index]? with
    | none => (none, s)
    | some (qtype, .answered driver) => (some ⟨qtype, driver.result.values⟩, s)
    | some (qtype, .asking driver) =>
      let (outcome, driver) :=
        { driver with operation := s.resolver.share driver.operation }.step case nowMs transport
      let given := match outcome with
        | .ok result => some ⟨qtype, result.values⟩
        | .error _ => none
      (given, { s with
        resolver := s.resolver.shared driver.operation
        drivers := s.drivers.set index (qtype, .asking driver) })
  | .cancelDriver index =>
    match s.drivers[index]? with
    | none => (none, s)
    | some (qtype, .answered driver) => (some ⟨qtype, driver.result.values⟩, s)
    | some (qtype, .asking driver) =>
      let (result, driver) := driver.cancel
      (some ⟨qtype, result.values⟩, { s with drivers := s.drivers.set index (qtype, .asking driver) })
  | .receive index payload nowMs =>
    match s.operations[index]? with
    | none => (none, s)
    | some operation =>
      let operation := ((s.resolver.share operation).receive case payload nowMs).2
      (some ⟨operation.qtype, operation.values⟩,
        { s with resolver := s.resolver.shared operation, operations := s.operations.set index operation })
  | .cancelOperation index =>
    match s.operations[index]? with
    | none => (none, s)
    | some operation => (none, { s with operations := s.operations.set index operation.cancel })

/-- What the calls of a run give. -/
def given (case : CaseMapping) : Resolution → List ResolverCall → List Given
  | _, [] => []
  | s, call :: calls => (s.call case call).1.toList ++ given case (s.call case call).2 calls

end Resolution

end Dns
end PccGateway
