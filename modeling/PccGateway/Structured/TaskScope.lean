import PccGateway.Lib.Thread

namespace PccGateway
open Method

/-- What a scope uses of `pcc.virtual_thread`. The world holds every thread; others of them may end
while one call waits. `cancel` does not raise. -/
structure VirtualThreads (Child World ε Value : Type) where
  terminal : Child → World → Prop
  cancel : Child → World → World
  join : Child → Thread World ε Unit
  result : Child → World → Except ε Value

variable {Child World ε Value : Type}

/-- A thread that ended stays so, and `join` comes back only when its thread has ended. -/
structure VirtualThreads.Lawful (threads : VirtualThreads Child World ε Value) : Prop where
  cancel_keeps : ∀ child other world, threads.terminal other world →
    threads.terminal other (threads.cancel child world)
  join_keeps : ∀ child other world, threads.terminal other world →
    threads.terminal other (threads.join child world).1
  join_terminal : ∀ child world, Ends (threads.join child) world (fun _ after =>
    threads.terminal child after)
    (fun halt after => ∀ error, halt = .raised error → threads.terminal child after)

/-- `TaskScopeError`, or what a child raised. -/
inductive ScopeError (ε : Type) where
  | taskScope (message : String)
  | child (error : ε)
  deriving DecidableEq, Repr

structure TaskScope (Child ε : Type) where
  name : String
  children : List Child := []
  joined : Bool := false
  closed : Bool := false
  failure : Option ε := none
  closeReason : String := ""
  deriving DecidableEq, Repr

/-- A call of the scope on `virtual_thread` that came back, in the order of the calls. -/
inductive ThreadCall (Child ε : Type) where
  | cancel (child : Child)
  | join (child : Child) (outcome : Except ε Unit)
  deriving Repr

structure ScopeState (Child World ε : Type) where
  scope : TaskScope Child ε
  world : World
  calls : List (ThreadCall Child ε)

/-- Code of the parent thread, which is the only one that uses the scope. -/
abbrev ScopeM (Child World ε α : Type) : Type := Thread (ScopeState Child World ε) (ScopeError ε) α

namespace TaskScope
variable (threads : VirtualThreads Child World ε Value)

def cancelChild (child : Child) : ScopeM Child World ε Unit :=
  modify fun s => { s with world := threads.cancel child s.world, calls := s.calls ++ [.cancel child] }

/-- `try: virtual_thread.join(child)`, where the exception that it raises is caught. -/
def joinChild (child : Child) : ScopeM Child World ε (Except ε Unit) := fun s =>
  match threads.join child s.world with
  | (world, .ok ()) => ({ s with world := world, calls := s.calls ++ [.join child (.ok ())] }, .ok (.ok ()))
  | (world, .error (.raised error)) =>
    ({ s with world := world, calls := s.calls ++ [.join child (.error error)] }, .ok (.error error))
  | (world, .error .parked) => ({ s with world := world }, .error .parked)
  | (world, .error .unfinished) => ({ s with world := world }, .error .unfinished)

/-- `_retire_child`: a cancelled child raises on join by design. -/
def retireChild (child : Child) : ScopeM Child World ε Unit := do
  cancelChild threads child
  let _ ← joinChild threads child

/-- `_retire` over the children from its start on. -/
def retire : List Child → ScopeM Child World ε Unit
  | [] => pure ()
  | child :: rest => do
    retireChild threads child
    retire rest

def rejectScopeFork (child : Child) : ScopeM Child World ε Child := do
  retireChild threads child
  let s ← get
  if s.scope.closed then Thread.raise (.taskScope ("scope " ++ s.scope.name ++ " is closed"))
  else if s.scope.joined then Thread.raise (.taskScope ("scope " ++ s.scope.name ++ " already joined"))
  else do
    modify fun s => { s with scope := { s.scope with children := s.scope.children ++ [child] } }
    return child

def fork (child : Child) : ScopeM Child World ε Child := do
  let s ← get
  if s.scope.closed ∨ s.scope.joined then rejectScopeFork threads child
  else do
    modify fun s => { s with scope := { s.scope with children := s.scope.children ++ [child] } }
    return child

/-- The loop of `join`: the children behind the first one that failed, if one did. -/
def joinChildren : List Child → ScopeM Child World ε (Option (List Child))
  | [] => pure none
  | child :: rest => do
    match ← joinChild threads child with
    | .ok () => joinChildren rest
    | .error error =>
      modify fun s => { s with scope := { s.scope with failure := some error } }
      return some rest

/-- `raise self.failure`, when there is one. -/
def raiseFailure : ScopeM Child World ε Unit := do
  let s ← get
  match s.scope.failure with
  | some error => Thread.raise (.child error)
  | none => pure ()

def join : ScopeM Child World ε Unit := do
  let s ← get
  if s.scope.joined then raiseFailure
  else do
    modify fun s => { s with scope := { s.scope with joined := true } }
    match ← joinChildren threads s.scope.children with
    | none => pure ()
    | some rest =>
      retire threads rest
      raiseFailure

def result (child : Child) : ScopeM Child World ε Value := do
  let s ← get
  if ¬ s.scope.joined then
    Thread.raise (.taskScope ("scope " ++ s.scope.name ++ ": result read before join"))
  else
    match threads.result child s.world with
    | .ok value => return value
    | .error error => Thread.raise (.child error)

/-- `_close_unjoined`. -/
def closeUnjoined (reason : String) : ScopeM Child World ε Unit := do
  let s ← get
  if s.scope.closed then pure ()
  else do
    modify fun s => { s with scope := { s.scope with closed := true, closeReason := reason } }
    if ¬ s.scope.joined then do
      modify fun s => { s with scope := { s.scope with joined := true } }
      retire threads s.scope.children
    else pure ()

def close (reason : String) : ScopeM Child World ε Unit := do
  let s ← get
  if s.scope.closed then pure ()
  else if s.scope.joined then
    modify fun s => { s with scope := { s.scope with closed := true, closeReason := reason } }
  else closeUnjoined threads reason

end TaskScope

end PccGateway
