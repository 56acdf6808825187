import PccGateway.Upstream.Group

namespace PccGateway
namespace Upstreams

/-- `acquire` of a group, from taking the lock to giving it back, with the place of the lease it made. -/
def acquire (id : Nat) (world : Upstreams) : Upstreams × Option Nat :=
  let entered := world.enter id
  let count := (entered.groups[id]?.map fun group => group.endpoints.length).getD 0
  let left := (attempt id)^[count] entered
  (left, if world.leases.length < left.leases.length then some world.leases.length else none)

structure PooledUpstreamConnection where
  handle : Int
  lease : Nat
  lastUsedMs : Int
  released : Bool := false

def PooledUpstreamConnection.needsOpen (connection : PooledUpstreamConnection) : Bool :=
  decide (connection.handle < 0)

/-- Who had a handle that was passed to `opened`: the connection that took it, or nobody, when that
call, at this place of all the calls, refused it. -/
inductive Owner where
  | connection (id : Nat)
  | refused (call : Nat)
  deriving DecidableEq

/-- A call that has left the lock. -/
inductive Call where
  /-- `reserve` before its loop takes the lock; `acquire` opens what it gets. -/
  | reserving (nowMs : Int) (opens : Bool)
  /-- It has an expired handle to close first. -/
  | expired (nowMs : Int) (opens : Bool) (connection : Nat) (handle : Int)
  /-- `acquire` in `open_connection`. -/
  | opening (connection : Nat)
  /-- `_close_handle` before the call ends. -/
  | closing (owner : Owner) (handle : Int)
  /-- `close_idle` with the handles that are left. -/
  | sweeping (handles : List (Nat × Int))

/-- The pool. Connections are named by their places in the list of all there have been. Beside the
fields of the source there are the calls under way, the connections that users have, the handles that
were passed to `opened` and to `close_connection`, and what was raised under the lock. -/
structure UpstreamConnectionPool where
  world : Upstreams
  group : Nat
  idleTimeoutMs : Int
  idle : List Nat := []
  connections : List PooledUpstreamConnection := []
  calls : List Call := []
  checkedOut : List Nat := []
  passed : List (Owner × Int) := []
  closed : List (Owner × Int) := []
  raised : List Exn := []
  positive : 0 < idleTimeoutMs

namespace UpstreamConnectionPool

def maxIdle (pool : UpstreamConnectionPool) : Nat :=
  (pool.world.groups[pool.group]?.map fun group => group.maxIdle).getD 0

def putConnection (id : Nat) (connection : PooledUpstreamConnection) (pool : UpstreamConnectionPool) :
    UpstreamConnectionPool :=
  { pool with connections := pool.connections.set id connection }

/-- The call goes on later. -/
def goes (call : Call) (pool : UpstreamConnectionPool) : UpstreamConnectionPool :=
  { pool with calls := pool.calls ++ [call] }

def raises (error : Exn) (pool : UpstreamConnectionPool) : UpstreamConnectionPool :=
  { pool with raised := pool.raised ++ [error] }

/-- `_close_locked`. A connection whose lease is released is nobody's. -/
def closeLocked (id : Nat) (failed : Bool) : Method UpstreamConnectionPool Exn Int := fun pool =>
  match pool.connections[id]? with
  | none => (pool, .ok (-1))
  | some connection =>
    if connection.released then (pool, .ok (-1))
    else
      let pool := { pool.putConnection id { connection with released := true } with
        checkedOut := pool.checkedOut.erase id }
      match pool.world.releaseLease pool.group connection.lease failed with
      | (world, .ok ()) => ({ pool with world }, .ok connection.handle)
      | (world, .error error) => ({ pool with world }, .error error)

/-- `_close_handle`. -/
def closeHandle (owner : Owner) (handle : Int) (pool : UpstreamConnectionPool) : UpstreamConnectionPool :=
  if 0 ≤ handle then { pool with closed := pool.closed ++ [(owner, handle)] } else pool

/-- `_close`, up to its callback. -/
def close (id : Nat) (failed : Bool) (pool : UpstreamConnectionPool) : UpstreamConnectionPool :=
  match closeLocked id failed pool with
  | (pool, .ok handle) => pool.goes (.closing (.connection id) handle)
  | (pool, .error error) => pool.raises error

/-- What a pass of `reserve` comes to. -/
inductive Reserved where
  | connection (id : Nat)
  | full
  | expired (id : Nat) (handle : Int)

/-- The locked section of a pass of `reserve`. -/
def reserveLocked (nowMs : Int) : Method UpstreamConnectionPool Exn Reserved := fun pool =>
  match pool.idle.getLast? with
  | some id =>
    let popped := { pool with idle := pool.idle.dropLast }
    match pool.connections[id]? with
    | none => (popped, .ok (.expired id (-1)))
    | some connection =>
      if connection.released = false ∧ nowMs - connection.lastUsedMs < pool.idleTimeoutMs then
        ({ popped with checkedOut := pool.checkedOut ++ [id] }, .ok (.connection id))
      else
        match closeLocked id false popped with
        | (pool, .ok handle) => (pool, .ok (.expired id handle))
        | (pool, .error error) => (pool, .error error)
  | none =>
    match pool.world.acquire pool.group with
    | (world, none) => ({ pool with world }, .ok .full)
    | (world, some lease) =>
      ({ pool with
          world
          connections := pool.connections ++ [{ handle := -1, lease, lastUsedMs := nowMs }]
          checkedOut := pool.checkedOut ++ [pool.connections.length] },
            .ok (.connection pool.connections.length))

/-- `opened`, up to its callback. -/
def opened (id : Nat) (handle : Int) (pool : UpstreamConnectionPool) : UpstreamConnectionPool :=
  if handle < 0 then pool.close id true
  else
    match pool.connections[id]? with
    | none => pool
    | some connection =>
      if connection.released = true ∨ 0 ≤ connection.handle then
        -- the caller transferred this handle, so that the pool closes it before it raises
        goes (.closing (.refused pool.passed.length) handle)
          { pool with passed := pool.passed ++ [(.refused pool.passed.length, handle)] }
      else
        { pool.putConnection id { connection with handle } with passed := pool.passed ++
          [(.connection id, handle)] }

/-- The locked section of `release`: the connection is idle again, or its handle is to be closed. -/
def releaseLocked (id : Nat) (nowMs : Int) (reusable : Bool) :
    Method UpstreamConnectionPool Exn (Option Int) := fun pool =>
  match pool.connections[id]? with
  | none => (pool, .ok none)
  | some connection =>
    if connection.released then (pool, .error (.runtime "upstream connection released more than once"))
    else
      let pool := pool.putConnection id { connection with lastUsedMs := nowMs }
      if 0 ≤ connection.handle ∧ reusable = true ∧ pool.idle.length < pool.maxIdle then
        ({ pool with idle := pool.idle ++ [id], checkedOut := pool.checkedOut.erase id }, .ok none)
      else
        match closeLocked id (!reusable) pool with
        | (pool, .ok handle) => (pool, .ok (some handle))
        | (pool, .error error) => (pool, .error error)

/-- The loop of `close_idle`. -/
def closeEach : List Nat → Method UpstreamConnectionPool Exn (List (Nat × Int))
  | [] => pure []
  | id :: rest => do
    let pool ← Method.get
    if pool.connections[id]?.all fun connection => connection.released then closeEach rest
    else
      let handle ← closeLocked id false
      let handles ← closeEach rest
      pure ((id, handle) :: handles)

/-- The locked section of `close_idle`. -/
def closeIdleLocked : Method UpstreamConnectionPool Exn (List (Nat × Int)) := fun pool =>
  closeEach pool.idle { pool with idle := [] }

/-- A call goes on, with what its callback returned, or nothing if it raised. -/
def proceed (call : Call) (result : Option Int) (pool : UpstreamConnectionPool) : UpstreamConnectionPool :=
  match call with
  | .reserving nowMs opens =>
    match reserveLocked nowMs pool with
    | (pool, .ok (.connection id)) =>
      if opens = true ∧ pool.connections[id]?.any PooledUpstreamConnection.needsOpen then
        pool.goes (.opening id) else pool
    | (pool, .ok .full) => pool
    | (pool, .ok (.expired id handle)) => pool.goes (.expired nowMs opens id handle)
    | (pool, .error error) => pool.raises error
  | .expired nowMs opens id handle =>
    let closed := pool.closeHandle (.connection id) handle
    if 0 ≤ handle ∧ result = none then closed else closed.goes (.reserving nowMs opens)
  | .opening id =>
    match result with
    | none => pool.close id true
    | some handle => pool.opened id handle
  | .closing owner handle => pool.closeHandle owner handle
  | .sweeping [] => pool
  | .sweeping ((id, handle) :: rest) => (pool.closeHandle (.connection id) handle).goes (.sweeping rest)

inductive Action where
  | reserve (nowMs : Int) (opens : Bool)
  | opened (connection : Nat) (handle : Int)
  | release (connection : Nat) (nowMs : Int) (reusable : Bool)
  | closeIdle
  /-- The call at this place goes on. -/
  | proceed (call : Nat) (result : Option Int)
  /-- Another group acts on the endpoints. -/
  | other (action : Upstreams.Action)

def step (pool : UpstreamConnectionPool) : Action → UpstreamConnectionPool
  | .reserve nowMs opens => pool.goes (.reserving nowMs opens)
  | .opened connection handle => pool.opened connection handle
  | .release connection nowMs reusable =>
    match releaseLocked connection nowMs reusable pool with
    | (pool, .ok none) => pool
    | (pool, .ok (some handle)) => pool.goes (.closing (.connection connection) handle)
    | (pool, .error error) => pool.raises error
  | .closeIdle =>
    match closeIdleLocked pool with
    | (pool, .ok handles) => pool.goes (.sweeping handles)
    | (pool, .error error) => pool.raises error
  | .proceed place result =>
    match pool.calls[place]? with
    | none => pool
    | some call => { pool with calls := pool.calls.eraseIdx place }.proceed call result
  | .other action =>
    if action.group = pool.group then pool else { pool with world := pool.world.step action }

end UpstreamConnectionPool
end Upstreams
end PccGateway
