import PccGateway.Lifecycle.Admission

namespace PccGateway

/-- What `resource.retain()` returned, with the place of that call among all of them. -/
structure Retained where
  resource : Nat
  call : Nat
  deriving DecidableEq

/-- A generation. Configurations and resources are opaque objects; `recorded` keeps every resource it
was given. -/
structure GatewayGeneration where
  generationId : Nat
  config : Nat
  resources : List Retained := []
  references : Int := 1
  retired : Bool := false
  released : Bool := false
  recorded : List Retained := resources

namespace GatewayGeneration

def attachable (generation : GatewayGeneration) : Bool :=
  !generation.retired && !generation.released && decide (generation.references = 1)

/-- One reference less, with the resources to release if it was the last. -/
def drop (generation : GatewayGeneration) : GatewayGeneration × Option (List Retained) :=
  if generation.references - 1 = 0 then
    ({ generation with references := generation.references - 1, released := true, resources := [] },
      some generation.resources)
  else ({ generation with references := generation.references - 1 }, none)

end GatewayGeneration

/-- A lifecycle with its generations, named by their places in the list of all there have been. -/
structure Generations where
  lifecycle : GatewayLifecycle
  nextGenerationId : Nat := 2
  generations : List GatewayGeneration
  current : Nat := 0
  retiredGenerations : List Nat := []
  publishing : Bool := false

namespace Generations
open Method

/-- A section under the lock. -/
abbrev Section (α : Type) := Method Generations Exn α

def put (id : Nat) (generation : GatewayGeneration) (store : Generations) : Generations :=
  { store with generations := store.generations.set id generation }

/-- `GatewayLifecycle(config, limits)`. -/
def init (config : Nat) (limits : AdmissionLimits) : Generations where
  lifecycle := { limits }
  generations := [{ generationId := 1, config }]

def retain (id : Nat) : Section Unit := fun store =>
  match store.generations[id]? with
  | none => (store, .ok ())
  | some generation =>
    if generation.released then (store, .error (.runtime "cannot retain released gateway generation"))
    else (store.put id { generation with references := generation.references + 1 }, .ok ())

def acquireGeneration : Section Nat := do
  let store ← get
  if store.lifecycle.state ≠ .running then raise (.runtime "gateway is not accepting new work")
  else
    retain store.current
    return store.current

/-- The first check of `attach_resource`. -/
def attachCheck (id : Nat) : Section Unit := fun store =>
  match store.generations[id]? with
  | none => (store, .ok ())
  | some generation =>
    if generation.attachable then (store, .ok ())
    else (store, .error (.runtime "resources attach only to an unpublished generation"))

/-- The second check of `attach_resource`: the resource is attached, or it has to be released. -/
def attach (id : Nat) (retained : Retained) : Section Bool := fun store =>
  match store.generations[id]? with
  | none => (store, .ok false)
  | some generation =>
    if generation.attachable then
      (store.put id { generation with
        resources := generation.resources ++ [retained],
          recorded := generation.recorded ++ [retained] }, .ok true)
    else (store, .ok false)

/-- `retire`, with the resources that it has to release. -/
def retire (id : Nat) : Section (Option (List Retained)) := fun store =>
  match store.generations[id]? with
  | none => (store, .ok none)
  | some generation =>
    if generation.retired then (store, .error (.runtime "gateway generation retired more than once"))
    else if generation.released = true ∨ generation.references ≤ 0 then
      (store, .error (.runtime "gateway generation released more than once"))
    else
      let dropped := { generation with retired := true }.drop
      (store.put id dropped.1, .ok dropped.2)

/-- `release`, with the resources that it has to release. -/
def release (id : Nat) : Section (Option (List Retained)) := fun store =>
  match store.generations[id]? with
  | none => (store, .ok none)
  | some generation =>
    if generation.released = true ∨ generation.references ≤ 0 then
      (store, .error (.runtime "gateway generation released more than once"))
    else (store.put id generation.drop.1, .ok generation.drop.2)

/-- The first section of `publish`. -/
def publishStart : Section Nat := do
  let store ← get
  if store.lifecycle.state ≠ .running then raise (.runtime "configuration publish requires running state")
  else if store.publishing then raise (.runtime "concurrent configuration publish rejected")
  else
    modify fun store => { store with publishing := true, nextGenerationId := store.nextGenerationId + 1 }
    return store.nextGenerationId

/-- The second section of `publish`, with the replacement made: the generation that it replaces, if
the gateway still runs. -/
def install (replacement : GatewayGeneration) : Section (Option Nat) := do
  let store ← get
  modify fun store => { store with generations := store.generations ++ [replacement] }
  if store.lifecycle.state = .running then
    modify fun store => { store with
      current := store.generations.length - 1,
        retiredGenerations := store.retiredGenerations ++ [store.current] }
    return some store.current
  else
    modify fun store => { store with publishing := false }
    return none

/-- The last section of `publish`. -/
def publishEnd : Section Unit := modify fun store => { store with publishing := false }

/-- `collect_retired`, with the number that it collected. -/
def collectRetired : Section Nat := fun store =>
  let released (id : Nat) : Bool := store.generations[id]?.any fun generation => generation.released
  ({ store with retiredGenerations := store.retiredGenerations.filter fun id => !released id },
    .ok (store.retiredGenerations.countP released))

/-- A method of the lifecycle that leaves the generations alone. -/
def onLifecycle {α : Type} (call : GatewayLifecycle.Call α) : Section α :=
  Method.on Generations.lifecycle (fun lifecycle store => { store with lifecycle }) call

/-- The section of `finish_drain`: the generation to retire, if the drain has ended. -/
def finishDrain (force : Bool) : Section (Option Nat) := do
  let finished ← onLifecycle (GatewayLifecycle.finishDrain force)
  let store ← get
  return if finished then some store.current else none

end Generations
end PccGateway
