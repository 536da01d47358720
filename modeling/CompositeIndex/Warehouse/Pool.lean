import CompositeIndex.Warehouse.Location

/-!
# The pool of connections

Connections to a warehouse are lent out and taken back. A connection that comes back is kept
for reuse unless enough idle ones are kept already. A new connection is opened only when no
idle one is left; connections are numbered in the order in which they are opened.
-/

namespace CompositeIndex

/-- The connections to one warehouse. -/
structure Pool where
  path : String
  /-- The number of idle connections that are kept at most. -/
  idleLimit : Nat
  /-- The number of connections opened so far. -/
  opened : Nat := 0
  /-- The connections waiting for reuse, the one that came back last in front. -/
  idle : List Nat := []
  /-- The connections lent out, oldest loan first. -/
  held : List Nat := []
  deriving DecidableEq, Repr

namespace Pool

/-- A pool without any connection. It keeps at least one idle connection. -/
def new (path : String) (idleLimit : Nat) : Pool where
  path := path
  idleLimit := max 1 idleLimit

def acquire (pool : Pool) : Pool :=
  match pool.idle with
  | connection :: idle => { pool with idle, held := pool.held ++ [connection] }
  | [] => { pool with opened := pool.opened + 1, held := pool.held ++ [pool.opened] }

/-- Keeps a connection for reuse if there is room for it. -/
def park (pool : Pool) (connection : Nat) : Pool :=
  if pool.idle.length < pool.idleLimit then { pool with idle := connection :: pool.idle }
  else pool

/-- Takes back the connection at a position among the loans; without such a loan nothing
happens. -/
def release (pool : Pool) (position : Nat) : Pool :=
  match pool.held[position]? with
  | some connection => { pool with held := pool.held.eraseIdx position }.park connection
  | none => pool

/-- Takes back the oldest loan. -/
def releaseFirst (pool : Pool) : Pool :=
  pool.release 0

/-- Takes back the latest loan. -/
def releaseLast (pool : Pool) : Pool :=
  pool.release (pool.held.length - 1)

/-- Takes back the oldest loan as often as there are loans. -/
def releaseAll (pool : Pool) : Pool :=
  pool.held.foldl (fun pool _ => pool.releaseFirst) pool

end Pool
end CompositeIndex
