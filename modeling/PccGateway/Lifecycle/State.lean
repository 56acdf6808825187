import PccGateway.Errors
import PccGateway.Lib.Method

namespace PccGateway

inductive GatewayState where
  | new
  | starting
  | running
  | draining
  | stopped
  | failed
  deriving DecidableEq

/-- The values of the `STATE_` constants. -/
def GatewayState.rank : GatewayState → Nat
  | .new => 0
  | .starting => 1
  | .running => 2
  | .draining => 3
  | .stopped => 4
  | .failed => 5

/-- The limits are natural numbers: the constructor refuses negative ones. -/
structure AdmissionLimits where
  maxConnections : Nat := 4096
  maxRequests : Nat := 4096
  maxQueuedRequests : Nat := 1024
  maxUpstreamActive : Nat := 2048
  maxBufferedBytes : Nat := 67108864
  deriving DecidableEq

/-- The counters that the lifecycle uses. -/
inductive Metric where
  | connectionsAccepted
  | connectionsActive
  | connectionsRejected
  | requestsStarted
  | requestsActive
  | requestsQueued
  | requestsRejected
  | bufferedBytes
  | upstreamActive
  | drainForced
  deriving DecidableEq

/-- The state of a gateway and what it has admitted. -/
structure GatewayLifecycle where
  limits : AdmissionLimits
  state : GatewayState := .new
  metrics : Metric → Int := fun _ => 0
  queuedRequests : Int := 0
  failedReason : String := ""

namespace GatewayLifecycle
open Method

/-- A method, all of it under the lock. -/
abbrev Call (α : Type) := Method GatewayLifecycle Exn α

/-- `_add_unlocked`. -/
def add (name : Metric) (amount : Int) (lifecycle : GatewayLifecycle) : GatewayLifecycle :=
  { lifecycle with metrics := Function.update lifecycle.metrics name (lifecycle.metrics name + amount) }

def start : Call Unit := do
  let lifecycle ← get
  if lifecycle.state ≠ .new then raise (.runtime "gateway can start only once")
  else modify fun lifecycle => { lifecycle with state := .starting }

def started : Call Unit := do
  let lifecycle ← get
  if lifecycle.state ≠ .starting then raise (.runtime "gateway is not starting")
  else modify fun lifecycle => { lifecycle with state := .running }

/-- What `admit_connection` and `admit_request` do with their counters. -/
def admitRunning (gauge total rejected : Metric) (limit : GatewayLifecycle → Nat) : Call Bool := do
  let lifecycle ← get
  if lifecycle.state ≠ .running ∨ limit lifecycle ≤ lifecycle.metrics gauge then
    modify (add rejected 1)
    return false
  else
    modify (add total 1)
    modify (add gauge 1)
    return true

def admitConnection : Call Bool :=
  admitRunning .connectionsActive .connectionsAccepted .connectionsRejected fun lifecycle =>
    lifecycle.limits.maxConnections

def admitRequest : Call Bool :=
  admitRunning .requestsActive .requestsStarted .requestsRejected fun lifecycle =>
    lifecycle.limits.maxRequests

/-- What `release_connection`, `release_request` and `release_upstream` do with their gauge. -/
def releaseOne (gauge : Metric) (message : String) : Call Unit := do
  let lifecycle ← get
  if lifecycle.metrics gauge ≤ 0 then raise (.runtime message) else modify (add gauge (-1))

def releaseConnection : Call Unit :=
  releaseOne .connectionsActive "connection admission released more than once"

def releaseRequest : Call Unit := releaseOne .requestsActive "request admission released more than once"

def queueRequest : Call Bool := do
  let lifecycle ← get
  if lifecycle.limits.maxQueuedRequests ≤ lifecycle.queuedRequests then
    modify (add .requestsRejected 1)
    return false
  else
    modify fun lifecycle => { lifecycle with queuedRequests := lifecycle.queuedRequests + 1 }
    modify (add .requestsQueued 1)
    return true

def releaseQueuedRequest : Call Unit := do
  let lifecycle ← get
  if lifecycle.queuedRequests ≤ 0 then raise (.runtime "queued request released more than once")
  else
    modify fun lifecycle => { lifecycle with queuedRequests := lifecycle.queuedRequests - 1 }
    modify (add .requestsQueued (-1))

def admitUpstream : Call Bool := do
  let lifecycle ← get
  if lifecycle.limits.maxUpstreamActive ≤ lifecycle.metrics .upstreamActive then return false
  else
    modify (add .upstreamActive 1)
    return true

def releaseUpstream : Call Unit := releaseOne .upstreamActive "upstream admission released more than once"

def reserveBuffered (amount : Int) : Call Bool := do
  if amount < 0 then raise (.value "buffer reservation cannot be negative")
  else
    let lifecycle ← get
    if lifecycle.limits.maxBufferedBytes < lifecycle.metrics .bufferedBytes + amount then return false
    else
      modify (add .bufferedBytes amount)
      return true

def releaseBuffered (amount : Int) : Call Unit := do
  let lifecycle ← get
  if amount < 0 ∨ lifecycle.metrics .bufferedBytes < amount then
    raise (.runtime "buffer reservation released out of range")
  else modify (add .bufferedBytes (-amount))

def beginDrain : Call Unit := do
  let lifecycle ← get
  if lifecycle.state ≠ .starting ∧ lifecycle.state ≠ .running then
    raise (.runtime "gateway cannot enter drain from this state")
  else modify fun lifecycle => { lifecycle with state := .draining }

/-- `_drain_active_unlocked`. -/
def drainActive (force : Bool) : Call Int := do
  let lifecycle ← get
  let active := lifecycle.metrics .connectionsActive + lifecycle.metrics .requestsActive
  if active ≠ 0 ∧ force = true then
    modify (add .drainForced active)
    modify fun lifecycle => { lifecycle with
      metrics := Function.update (Function.update lifecycle.metrics .connectionsActive 0)
        .requestsActive 0 }
  return active

/-- `finish_drain`, up to the retirement of the current generation, which is outside the lock. -/
def finishDrain (force : Bool) : Call Bool := do
  let lifecycle ← get
  if lifecycle.state ≠ .draining then raise (.runtime "gateway is not draining")
  else
    let active ← drainActive force
    if active ≠ 0 ∧ force = false then return false
    else
      modify fun lifecycle => { lifecycle with state := .stopped }
      return true

def fail (reason : String) : Call Unit :=
  modify fun lifecycle => { lifecycle with failedReason := reason, state := .failed }

end GatewayLifecycle
end PccGateway
