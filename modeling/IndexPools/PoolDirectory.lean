import IndexPools.PoolId
import IndexPools.SlotTable

/-!
# The directory of pools

The directory that an engine works on. It keeps the table of each live pool, and the retired tables
of each pool in the order in which they were retired, so that two directories in which the same
happened are equal, wherever their tables lie. A handle names a table by its pool and by how many
tables of that pool were retired before (`PoolDirectory.handle?`), and is stale as soon as there are
more of them (`PoolDirectory.isStale`). A retired table still answers through its handle
(`PoolDirectory.onHandle`), but not to who asks for a fresh one (`PoolDirectory.onFresh`).
-/

namespace IndexPools

structure PoolDirectory where
  live : Std.ExtTreeMap PoolId SlotTable
  retired : Std.ExtTreeMap PoolId (List SlotTable)
deriving DecidableEq

/-- One of the tables that a pool has had; `lifetime` counts those before it. -/
structure Handle where
  pool : PoolId
  lifetime : Nat
deriving DecidableEq

namespace PoolDirectory

def empty : PoolDirectory := ⟨∅, ∅⟩

/-- Sets up a pool. A live pool keeps its table, and the answer is `false`. -/
def init (d : PoolDirectory) (pool : PoolId) (capacity : Nat) (strategy : Strategy) :
    Except AllocError Bool × PoolDirectory :=
  match d.live[pool]? with
  | some _ => (.ok false, d)
  | none =>
    match SlotTable.create capacity strategy with
    | .error e => (.error e, d)
    | .ok t => (.ok true, { d with live := d.live.insert pool t })

/-- The retired tables of a pool, the oldest first. -/
def retiredOf (d : PoolDirectory) (pool : PoolId) : List SlotTable :=
  d.retired.getD pool []

/-- Retires the pool's table; the answer says whether there was one. -/
def delete (d : PoolDirectory) (pool : PoolId) : Bool × PoolDirectory :=
  match d.live[pool]? with
  | none => (false, d)
  | some t =>
    (true,
      { live := d.live.erase pool
        retired := d.retired.insert pool (d.retiredOf pool ++ [t]) })

def contains (d : PoolDirectory) (pool : PoolId) : Bool := d.live.contains pool

def ids (d : PoolDirectory) : List PoolId := d.live.keys

def size (d : PoolDirectory) : Nat := d.live.size

def capacity? (d : PoolDirectory) (pool : PoolId) : Option Nat :=
  d.live[pool]?.map SlotTable.capacity

/-- A pool that is not live has no keys. -/
def snapshot (d : PoolDirectory) (pool : PoolId) : Snapshot :=
  match d.live[pool]? with
  | some t => t.snapshot
  | none => .empty

/-- Runs `f` on the table of a live pool. -/
def onPool {α : Type} (d : PoolDirectory) (pool : PoolId) (f : SlotTable → α × SlotTable) :
    Option (α × PoolDirectory) :=
  match d.live[pool]? with
  | none => none
  | some t =>
    let r := f t
    some (r.1, { d with live := d.live.insert pool r.2 })

def handle? (d : PoolDirectory) (pool : PoolId) : Option Handle :=
  if pool ∈ d.live then some ⟨pool, (d.retiredOf pool).length⟩ else none

def isStale (d : PoolDirectory) (h : Handle) : Bool :=
  h.lifetime < (d.retiredOf h.pool).length

def table? (d : PoolDirectory) (h : Handle) : Option SlotTable :=
  if d.isStale h then (d.retiredOf h.pool)[h.lifetime]? else d.live[h.pool]?

/-- Runs `f` on the handle's table, live or retired. -/
def onHandle {α : Type} (d : PoolDirectory) (h : Handle) (f : SlotTable → α × SlotTable) :
    Option (α × PoolDirectory) :=
  if d.isStale h then
    match (d.retiredOf h.pool)[h.lifetime]? with
    | none => none
    | some t =>
      let r := f t
      some (r.1,
        { d with retired := d.retired.insert h.pool ((d.retiredOf h.pool).set h.lifetime r.2) })
  else d.onPool h.pool f

/-- Runs `f` on the handle's table, unless its pool was deleted since the handle was fetched. -/
def onFresh {α : Type} (d : PoolDirectory) (h : Handle) (f : SlotTable → α × SlotTable) :
    Option (α × PoolDirectory) :=
  if d.isStale h then none else d.onHandle h f

end PoolDirectory

end IndexPools
