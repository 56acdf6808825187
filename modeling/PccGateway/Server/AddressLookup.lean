import PccGateway.Dns.Resolver
import PccGateway.Dns.NativeTransport
import PccGateway.Upstream.Rotation
import PccGateway.Server.Environment

namespace PccGateway
open Dns

/-- `_PROXY_CLIENT_OBSERVE_SLICE_MS`. -/
def proxyClientObserveSliceMs : Int := 25

/-- What a lookup does besides the steps of its driver: hooks, counters, and the waits for a descriptor. -/
inductive LookupEvent where
  | started
  | finished (count : Nat) (error : String)
  | query
  | failure
  | cacheHit
  | wait (handle : Int) (writing : Bool) (waitMs : Int)
  deriving DecidableEq

/-- What `_resolve_upstream_address` returns. -/
structure LookupOutcome where
  addresses : List Text
  failure : String
  deriving DecidableEq

/-- A call of `_resolve_upstream_address`: `available` is whether the connection has a resolver and a
transport, and `hook` whether `dns_started` returns. -/
structure LookupCall where
  host : Text
  limit : Int
  requestDeadlineMs : Int := -1
  nowMs : Int
  available : Bool := true
  hook : Bool := true

/-- A lookup lasts no longer than the connect, nor than the request. -/
def LookupCall.deadline (call : LookupCall) : Int :=
  if 0 ≤ call.requestDeadlineMs then minimumDeadline call.limit call.requestDeadlineMs else call.limit

/-- What one turn of the loop meets. `endpoint` is what the lock of the endpoint guards, as any
connection has left it, `known` whether it belongs to the group of the pool, and `waited`, `observed`
and `hook` say whether the wait for a descriptor, the look at the client and `dns_finished` return. -/
structure LookupTurn where
  cancelled : Bool := false
  nowMs : Int
  platform : Platform := {}
  endpoint : DnsAddressPolicy × AddressRotation Text := ({}, {})
  known : Bool := true
  waited : Bool := true
  observed : Option String := some ""
  hook : Bool := true

/-- A lookup of a connection that has its own resolver and transport. It has returned when there is an
outcome. -/
structure AddressLookup where
  resolver : Resolver
  transport : NativeDnsTransport := {}
  host : Text := []
  limit : Int := -1
  queryType : Int := dnsA
  driver : Option ResolverDriver := none
  events : List LookupEvent := []
  outcome : Option LookupOutcome := none

namespace AddressLookup

def note (lookup : AddressLookup) (event : LookupEvent) : AddressLookup :=
  { lookup with events := lookup.events ++ [event] }

def returns (lookup : AddressLookup) (addresses : List Text) (failure : String) : AddressLookup :=
  { lookup with outcome := some ⟨addresses, failure⟩ }

/-- The driver becomes another, which has made more calls of the transport. -/
def served (lookup : AddressLookup) (before after : DnsResolveDriver) (platform : Platform) :
    AddressLookup :=
  { lookup with
    transport := (after.calls.drop before.calls.length).foldl
      (fun transport call => transport.after (before.server.getD ⟨[], 53⟩) platform call) lookup.transport
    driver := some (.asking after) }

/-- `driver.cancel()`. -/
def cancelDriver (lookup : AddressLookup) : AddressLookup :=
  match lookup.driver with
  | some (.asking driver) => lookup.served driver driver.cancel.2 {}
  | _ => lookup

/-- The handler behind the loop. -/
def raised (lookup : AddressLookup) : AddressLookup :=
  ((lookup.cancelDriver.note .failure).note (.finished 0 "resolver-error")).returns [] "dns"

/-- `dns_failures` counts, `dns_finished` is called, and the lookup returns. -/
def fail (lookup : AddressLookup) (turn : LookupTurn) (report failure : String) : AddressLookup :=
  let lookup := (lookup.note .failure).note (.finished 0 report)
  if turn.hook then lookup.returns [] failure else lookup.raised

/-- The driver is cancelled first. -/
def abandon (lookup : AddressLookup) (turn : LookupTurn) (report failure : String) : AddressLookup :=
  lookup.cancelDriver.fail turn report failure

/-- `begin_driver` for the query type that the lookup has. -/
def beginDriver (case : CaseMapping) (lookup : AddressLookup) (nowMs : Int) : AddressLookup :=
  match lookup.resolver.beginDriver case lookup.host lookup.queryType nowMs lookup.limit with
  | (.error _, resolver) => { lookup with resolver }.raised
  | (.ok driver, resolver) => { lookup with resolver, driver := some driver }

/-- `driver.step(now)`. -/
def step (case : CaseMapping) (lookup : AddressLookup) (turn : LookupTurn) :
    Option DnsDriveResult × AddressLookup :=
  match lookup.driver with
  | none => (none, lookup)
  | some (.answered driver) => (some driver.result, lookup)
  | some (.asking driver) =>
    let shares := { driver with operation := lookup.resolver.share driver.operation }
    let (outcome, next) := shares.step case turn.nowMs
      (lookup.transport.answers driver (driver.server.getD ⟨[], 53⟩) turn.platform)
    (outcome.toOption, { lookup.served driver next turn.platform with
      resolver := lookup.resolver.shared next.operation })

/-- `result.kind == "complete"`. -/
def complete (case : CaseMapping) (lookup : AddressLookup) (turn : LookupTurn)
    (result : DnsDriveResult) : AddressLookup :=
  if result.values = [] then lookup.fail turn "no-address" "dns"
  else if turn.known = false then lookup.raised
  else
    match (AddressRotation.acceptAndOrderAddresses case ⟨lookup.host, result.values, lookup.queryType⟩
      turn.endpoint).2 with
    | .error _ => lookup.raised
    | .ok addresses =>
      let lookup := if result.source = "cache" ∨ result.source = "hosts" then lookup.note .cacheHit
        else lookup
      let lookup := lookup.note (.finished addresses.length "")
      if turn.hook then lookup.returns addresses "" else lookup.raised

/-- `result.kind == "error"`. -/
def failed (case : CaseMapping) (lookup : AddressLookup) (turn : LookupTurn) (error : String) :
    AddressLookup :=
  if lookup.queryType = dnsA ∧ (error = "no-address" ∨ error = "cached-negative") then
    { lookup with queryType := dnsAaaa }.beginDriver case turn.nowMs
  else if error = "timeout" ∨ error.endsWith ":attempt-timeout" ∨
    error.startsWith "retry-exhausted:attempt-timeout" ∨ lookup.limit ≤ turn.nowMs then
    lookup.fail turn "timeout" "dns-timeout"
  else
    let lookup := lookup.note (.finished 0 error)
    -- Here, and only here, the counter comes behind the hook.
    if turn.hook then (lookup.note .failure).returns [] "dns" else lookup.raised

/-- A wait for the descriptor in a slice of what remains, and a look at the client behind it. -/
def wait (lookup : AddressLookup) (turn : LookupTurn) (handle : Int) (writing : Bool)
    (remaining : Int) : AddressLookup :=
  if remaining ≤ 0 then lookup.abandon turn "timeout" "dns-timeout"
  else
    let waitMs := if proxyClientObserveSliceMs < remaining then proxyClientObserveSliceMs else remaining
    let lookup := lookup.note (.wait handle writing waitMs)
    if turn.waited = false then lookup.raised
    else
      match turn.observed with
      | none => lookup.raised
      | some failure => if failure ≠ "" then lookup.abandon turn "cancelled" failure else lookup

/-- `driver.handle` and `driver.attempt_deadline_ms`. -/
def attempt (lookup : AddressLookup) : Int × Int :=
  match lookup.driver with
  | some (.asking driver) => (driver.handle, driver.attemptDeadlineMs)
  | _ => (-1, -1)

/-- The rest of a turn, by what the step has given. -/
def settle (case : CaseMapping) (lookup : AddressLookup) (turn : LookupTurn)
    (result : DnsDriveResult) : AddressLookup :=
  match result.kind with
  | .complete => lookup.complete case turn result
  | .error => lookup.failed case turn result.error
  | .waitRead =>
    lookup.wait turn result.handle false (minimumDeadline result.deadlineMs lookup.limit - turn.nowMs)
  | .waitWrite =>
    lookup.wait turn result.handle true (minimumDeadline result.deadlineMs lookup.limit - turn.nowMs)
  | .ignored => lookup.wait turn lookup.attempt.1 false (lookup.attempt.2 - turn.nowMs)
  | .progress => lookup
  | .retry => lookup

/-- One turn of the loop. -/
def turn (case : CaseMapping) (lookup : AddressLookup) (turn : LookupTurn) : AddressLookup :=
  if turn.cancelled then lookup.abandon turn "cancelled" "cancelled"
  else
    match lookup.step case turn with
    | (none, lookup) => lookup.raised
    | (some result, lookup) => lookup.settle case turn result

/-- A call up to its loop, with what is left of the lookup before it. -/
def call (case : CaseMapping) (lookup : AddressLookup) (call : LookupCall) : AddressLookup :=
  let lookup := { lookup with
    host := call.host, limit := call.deadline, queryType := dnsA, driver := none, events := [],
      outcome := none }
  match normalizeNumericAddress call.host with
  | some numeric => lookup.returns [numeric] ""
  | none =>
    if call.available = false then lookup.returns [] "dns"
    else if call.deadline ≤ call.nowMs then lookup.returns [] "dns-timeout"
    else
      let lookup := lookup.note .started
      if call.hook = false then lookup.raised else (lookup.note .query).beginDriver case call.nowMs

end AddressLookup

/-- What happens to the lookups of a connection. -/
inductive LookupAction where
  | call (call : LookupCall)
  | turn (turn : LookupTurn)

namespace AddressLookup

/-- A connection does not call again before the lookup has returned, and there are no turns behind that. -/
def act (case : CaseMapping) (lookup : AddressLookup) : LookupAction → AddressLookup
  | .call call => if lookup.outcome.isSome then lookup.call case call else lookup
  | .turn turn => if lookup.outcome.isSome then lookup else lookup.turn case turn

/-- A connection that has not looked anything up. -/
def idle (resolver : Resolver) : AddressLookup := { resolver, outcome := some ⟨[], ""⟩ }

end AddressLookup

/-- The platform does not give out a descriptor that is open. -/
def LookupAction.Fresh (lookup : AddressLookup) : LookupAction → Prop
  | .turn round => 0 ≤ round.platform.openHandle → round.platform.openHandle ∉
      openHandles lookup.transport.platform
  | .call _ => True

instance instDecidableLookupFresh :
    (lookup : AddressLookup) → (action : LookupAction) → Decidable (action.Fresh lookup)
  | lookup, .turn round =>
    inferInstanceAs (Decidable (0 ≤ round.platform.openHandle →
      round.platform.openHandle ∉ openHandles lookup.transport.platform))
  | _, .call _ => .isTrue trivial

end PccGateway
