import PccGateway.Lib.Counting
import PccGateway.Lifecycle.Generations

namespace PccGateway
namespace Generations

/-- Who retires a generation. -/
inductive Retirer where
  /-- The `publish` that replaced it. -/
  | replaced
  /-- The `publish` that made it and lost the running state. -/
  | lost
  /-- `finish_drain`. -/
  | drained
  deriving DecidableEq

/-- A call that is between its sections, where callbacks of resources run. -/
inductive Call where
  /-- `publish` retains its resources. -/
  | constructing (generationId config : Nat) (resources : List Nat) (retained : List Retained)
  /-- `retire` is called next. -/
  | retiring (generation : Nat) (retirer : Retirer)
  /-- Resources are released; `publishes` if a `publish` goes on afterwards. -/
  | releasing (resources : List Retained) (publishes : Bool)
  | collecting
  /-- `attach_resource` retains its resource. -/
  | attaching (generation resource : Nat)
  | attached (generation : Nat) (retained : Retained)
  /-- It releases it again. -/
  | rejecting (retained : Retained)

namespace Call

/-- The retirement that the call makes next. -/
def pending : Call → Option (Nat × Retirer)
  | .retiring generation retirer => some (generation, retirer)
  | _ => none

/-- The identifier of the generation that the call makes. -/
def building : Call → Option Nat
  | .constructing generationId _ _ _ => some generationId
  | _ => none

/-- A `publish` that has set `_publishing`. -/
def publishing : Call → Bool
  | .constructing _ _ _ _ | .retiring _ .replaced | .releasing _ true => true
  | _ => false

/-- The retained resources that the call has. -/
def retained : Call → List Retained
  | .constructing _ _ _ retained => retained
  | .releasing resources _ => resources
  | .attached _ retained | .rejecting retained => [retained]
  | _ => []

/-- Those that a generation had. -/
def dropping : Call → List Retained
  | .releasing resources _ => resources
  | _ => []

end Call

/-- A run: the calls under way, the holders of a reference, the callbacks that were made, the
retirements and the generations that have been current. -/
structure Lifetime where
  store : Generations
  calls : List Call := []
  holders : List Nat := []
  retains : Nat := 0
  releases : List Retained := []
  retirements : List (Nat × Retirer) := []
  currents : List Nat := [0]

inductive Action where
  | lifecycle (action : GatewayLifecycle.Action)
  | finishDrain (force : Bool)
  | acquireGeneration
  | retain (generation : Nat)
  | release (generation : Nat)
  | attachResource (generation resource : Nat)
  | publish (config : Nat) (resources : List Nat)
  | collectRetired
  /-- The call at this place goes on. -/
  | proceed (call : Nat)

namespace Lifetime

def goes (call : Call) (run : Lifetime) : Lifetime := { run with calls := call :: run.calls }

def finishDrain (force : Bool) (run : Lifetime) : Lifetime :=
  match Generations.finishDrain force run.store with
  | (store, .ok (some generation)) => goes (.retiring generation .drained) { run with store }
  | (store, _) => { run with store }

/-- `_release_resources` begins with the last one. -/
def releasing (resources : Option (List Retained)) (publishes : Bool) : Call :=
  .releasing (resources.getD []).reverse publishes

def proceed (call : Call) (run : Lifetime) : Lifetime :=
  match call with
  | .constructing generationId config (resource :: rest) retained =>
    goes (.constructing generationId config rest (retained ++ [⟨resource, run.retains⟩]))
      { run with retains := run.retains + 1 }
  | .constructing generationId config [] retained =>
    match install { generationId, config, resources := retained } run.store with
    | (store, .ok (some previous)) =>
      goes (.retiring previous .replaced) { run with store, currents := run.currents ++ [store.current] }
    | (store, _) => goes (.retiring run.store.generations.length .lost) { run with store }
  | .retiring generation retirer =>
    match Generations.retire generation run.store with
    | (store, .ok resources) =>
      goes (releasing resources (decide (retirer = .replaced)))
        { run with store, retirements := run.retirements ++ [(generation, retirer)] }
    | (store, .error _) => goes (.releasing [] (decide (retirer = .replaced))) { run with store }
  | .releasing (resource :: rest) publishes =>
    goes (.releasing rest publishes) { run with releases := run.releases ++ [resource] }
  | .releasing [] true => goes .collecting { run with store := (publishEnd run.store).1 }
  | .releasing [] false => run
  | .collecting => { run with store := (Generations.collectRetired run.store).1 }
  | .attaching generation resource =>
    goes (.attached generation ⟨resource, run.retains⟩) { run with retains := run.retains + 1 }
  | .attached generation retained =>
    match Generations.attach generation retained run.store with
    | (store, .ok true) => { run with store }
    | (store, _) => goes (.rejecting retained) { run with store }
  | .rejecting retained => { run with releases := run.releases ++ [retained] }

/-- Only a generation that has been current is known outside `publish`, and only a holder releases it. -/
def step (run : Lifetime) : Action → Lifetime
  | .lifecycle .finishDrain => run.finishDrain false
  | .lifecycle action => { run with store := (onLifecycle action.run run.store).1 }
  | .finishDrain force => run.finishDrain force
  | .acquireGeneration =>
    match Generations.acquireGeneration run.store with
    | (store, .ok generation) => { run with store, holders := run.holders ++ [generation] }
    | (store, .error _) => { run with store }
  | .retain generation =>
    if generation ∈ run.currents then
      match Generations.retain generation run.store with
      | (store, .ok ()) => { run with store, holders := run.holders ++ [generation] }
      | (store, .error _) => { run with store }
    else run
  | .release generation =>
    if generation ∈ run.holders then
      match Generations.release generation run.store with
      | (store, .ok resources) =>
        goes (releasing resources false) { run with store, holders := run.holders.erase generation }
      | (store, .error _) => { run with store }
    else run
  | .attachResource generation resource =>
    if generation ∈ run.currents then
      match attachCheck generation run.store with
      | (store, .ok ()) => goes (.attaching generation resource) { run with store }
      | (store, .error _) => { run with store }
    else run
  | .publish config resources =>
    match publishStart run.store with
    | (store, .ok generationId) => goes (.constructing generationId config resources []) { run with store }
    | (store, .error _) => { run with store }
  | .collectRetired => { run with store := (Generations.collectRetired run.store).1 }
  | .proceed place =>
    match run.calls[place]? with
    | none => run
    | some call => { run with calls := run.calls.eraseIdx place }.proceed call

end Lifetime
end Generations
end PccGateway
