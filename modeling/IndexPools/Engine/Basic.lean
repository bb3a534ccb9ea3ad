import IndexPools.Pace
import IndexPools.PoolDirectory
import IndexPools.Store
import IndexPools.Digest

/-!
# The engine

An engine is a store of declarations, the pools that were set up, their pace levels, and the policy
on keys that are asked for twice. A pool is tracked by the pacer from when it is set up
(`Engine.initPool`) until it is deleted (`Engine.deletePool`). Every operation answers with the
engine after it, also when it fails.
-/

namespace IndexPools

/-- Whether a key that another holder has is answered with the holder's index or refused. -/
inductive ConflictPolicy where
  | keepExisting
  | reject
deriving DecidableEq, Repr

namespace ConflictPolicy

def name : ConflictPolicy → String
  | .keepExisting => "keep-existing"
  | .reject => "reject"

def ofName? (s : String) : Option ConflictPolicy :=
  if s = "keep-existing" then some .keepExisting
  else if s = "reject" then some .reject
  else none

def label : ConflictPolicy → String
  | .keepExisting => "KeepExisting"
  | .reject => "Reject"

def unknownMessage (s : String) : String :=
  "unknown conflict policy '" ++ s ++ "' (expected 'keep-existing' or 'reject')"

end ConflictPolicy

inductive RequestError where
  | poolNotFound (pool : PoolId)
  | poolNotReady (pool : PoolId)
  | invalid (fault : SelectorFault)
  | poolExhausted (pool : PoolId) (capacity : Nat)
  | ownershipConflict (pool : PoolId) (key owner : String)
  | invalidCapacity (pool : PoolId) (error : AllocError)
  | store (error : StoreError)
deriving DecidableEq

namespace RequestError

def message : RequestError → String
  | .poolNotFound pool => "pool not found: " ++ pool.text
  | .poolNotReady pool => "pool not ready: " ++ pool.text
  | .invalid fault => "invalid request: " ++ fault.text
  | .poolExhausted pool capacity =>
    "pool " ++ pool.text ++ " exhausted: all " ++ toString capacity ++ " indices are allocated"
  | .ownershipConflict pool key owner =>
    "key " ++ key ++ " in pool " ++ pool.text ++ " is already registered by " ++ owner
  | .invalidCapacity pool error =>
    "invalid capacity for pool " ++ pool.text ++ ": " ++ error.message
  | .store error => "store error: " ++ error.message

/-- The same request may succeed later. -/
def isRetryable : RequestError → Bool
  | .poolNotFound _ | .poolNotReady _ | .poolExhausted _ _ => true
  | _ => false

/-- A registry that is not declared has no pool. -/
def ofStore : StoreError → RequestError
  | .registryNotFound id => .poolNotFound id
  | error => .store error

def ofAlloc (pool : PoolId) : AllocError → RequestError
  | .exhausted capacity => .poolExhausted pool capacity
  | error => .invalidCapacity pool error

end RequestError

structure Engine where
  store : Store
  pools : PoolDirectory
  pacer : Pacer
  conflicts : ConflictPolicy
deriving DecidableEq

namespace Engine

def start (store : Store) (paceCap : UInt32) (conflicts : ConflictPolicy) : Engine :=
  ⟨store, .empty, .withCap paceCap, conflicts⟩

/-- A pool that exists keeps its table and is tracked all the same. -/
def initPool (e : Engine) (pool : PoolId) (capacity : Nat) (strategy : Strategy) :
    Except RequestError Bool × Engine :=
  match e.pools.init pool capacity strategy with
  | (.error err, pools) => (.error (.invalidCapacity pool err), { e with pools })
  | (.ok created, pools) => (.ok created, { e with pools, pacer := e.pacer.track pool })

/-- Sets up a pool as its registry declares it; the registry of a pool that exists is not read. -/
def initDeclared (e : Engine) (pool : PoolId) : Except RequestError Bool × Engine :=
  if e.pools.contains pool then (.ok false, { e with pacer := e.pacer.track pool })
  else
    match e.store.size pool with
    | .error err => (.error (.ofStore err), e)
    | .ok capacity =>
      match e.store.strategy pool with
      | .error err => (.error (.ofStore err), e)
      | .ok strategy => e.initPool pool capacity strategy

/-- Every key of the pool is dropped with it. -/
def deletePool (e : Engine) (pool : PoolId) : Bool × Engine :=
  let r := e.pools.delete pool
  (r.1, { e with pools := r.2, pacer := e.pacer.forget pool })

def snapshot (e : Engine) (pool : PoolId) : Snapshot := e.pools.snapshot pool

def status (e : Engine) (pool : PoolId) : RegistryStatus :=
  match e.pools.live[pool]? with
  | some t => .ofSnapshot t.capacity t.snapshot
  | none => .zero

def poolIds (e : Engine) : List PoolId := e.pools.ids

/-- A line about the engine for logs. -/
def summary (e : Engine) : String :=
  "AllocationCoordinator \x7b pools: " ++ toString e.pools.size ++ ", conflict_policy: "
    ++ e.conflicts.label ++ ", .. \x7d"

def resetPace (e : Engine) (pool : PoolId) : Engine :=
  { e with pacer := e.pacer.reset pool }

def incrementPace (e : Engine) (pool : PoolId) : Engine :=
  { e with pacer := e.pacer.increment pool }

def paceLevel (e : Engine) (pool : PoolId) : PaceLevel := e.pacer.level pool

def nextDelay (e : Engine) (pool : PoolId) (policy : PacePolicy) : Millis × Engine :=
  let r := e.pacer.nextDelay pool policy
  (r.1, { e with pacer := r.2 })

end Engine

end IndexPools
