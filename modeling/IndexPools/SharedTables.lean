import IndexPools.PoolId
import IndexPools.SlotTable

/-!
# Tables behind handles

A table is reached through its pool, and through every handle that was fetched from the pool, also
after the pool is gone. So each table lies in a cell of its own, beside the mark that its pool was
deleted (`Cell`). A handle is the address of a cell, and a pool is entered with the address of its
table (`SharedTables.fetch?`). Setting up a pool takes a new cell (`SharedTables.init`); deleting it
marks the cell and takes out the entry, and the cell stays for the handles that lead to it
(`SharedTables.delete`). A marked table can still be written through its handles
(`SharedTables.onTable`); whoever fetched a handle in order to act on the pool looks for the mark
first (`SharedTables.onFresh`).
-/

namespace IndexPools

/-- A table, and whether its pool was deleted. -/
structure Cell where
  table : SlotTable
  retired : Bool
deriving DecidableEq

/-- The position of a cell. -/
abbrev Address := Nat

structure SharedTables where
  cells : Array Cell
  entered : Std.ExtTreeMap PoolId Address
deriving DecidableEq

namespace SharedTables

def empty : SharedTables := ⟨#[], ∅⟩

/-- The handle to the table of a pool that is set up. -/
def fetch? (d : SharedTables) (pool : PoolId) : Option Address := d.entered[pool]?

def contains (d : SharedTables) (pool : PoolId) : Bool := d.entered.contains pool

/-- Sets up a pool. A pool that is set up already keeps its table, and the answer is `false`. -/
def init (d : SharedTables) (pool : PoolId) (capacity : Nat) (strategy : Strategy) :
    Except AllocError Bool × SharedTables :=
  if d.contains pool then (.ok false, d)
  else
    match SlotTable.create capacity strategy with
    | .error e => (.error e, d)
    | .ok t =>
      (.ok true,
        { cells := d.cells.push ⟨t, false⟩
          entered := d.entered.insert pool d.cells.size })

/-- Retires the pool's table; the answer says whether there was one. -/
def delete (d : SharedTables) (pool : PoolId) : Bool × SharedTables :=
  match d.fetch? pool with
  | none => (false, d)
  | some a =>
    (true,
      { cells := d.cells.modify a fun c => { c with retired := true }
        entered := d.entered.erase pool })

def isRetired (d : SharedTables) (a : Address) : Bool := d.cells[a]?.any Cell.retired

def table? (d : SharedTables) (a : Address) : Option SlotTable := d.cells[a]?.map Cell.table

/-- Runs `f` on the handle's table, retired or not. -/
def onTable {α : Type} (d : SharedTables) (a : Address) (f : SlotTable → α × SlotTable) :
    Option (α × SharedTables) :=
  match d.table? a with
  | none => none
  | some t =>
    let r := f t
    some (r.1, { d with cells := d.cells.modify a fun c => { c with table := r.2 } })

/-- Runs `f` on the handle's table, unless that is retired. -/
def onFresh {α : Type} (d : SharedTables) (a : Address) (f : SlotTable → α × SlotTable) :
    Option (α × SharedTables) :=
  if d.isRetired a then none else d.onTable a f

/-- A pool that is not set up has no keys. -/
def snapshot (d : SharedTables) (pool : PoolId) : Snapshot :=
  match (d.fetch? pool).bind d.table? with
  | some t => t.snapshot
  | none => .empty

def capacity? (d : SharedTables) (pool : PoolId) : Option Nat :=
  ((d.fetch? pool).bind d.table?).map SlotTable.capacity

def ids (d : SharedTables) : List PoolId := d.entered.keys

def size (d : SharedTables) : Nat := d.entered.size

end SharedTables

end IndexPools
