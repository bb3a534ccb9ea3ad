import IndexPools.Engine.Basic

/-!
# Placing and releasing keys

A request is accepted when its registry is declared and serves, and its selector names a key
(`Engine.accept`). Only then is a handle to the pool's table fetched, and the key is placed or
released through it (`Engine.register`, `Engine.deregister`), unless the pool was deleted in the
meantime (`Engine.place`, `Engine.unplace`). A key that is placed or released resets the pool's pace
level.
-/

namespace IndexPools

namespace Engine

/-- The key of a request that may be carried out. -/
def accept (e : Engine) (r : Request) : Except RequestError String :=
  match e.store.serves r.pool with
  | .error err => .error (.ofStore err)
  | .ok false => .error (.poolNotReady r.pool)
  | .ok true => r.key.mapError .invalid

/-- Gives the key a slot in the table of a handle that was fetched for the request. The pool may have
been deleted since, and then there is none. -/
def place (e : Engine) (h : Handle) (r : Request) (key : String) :
    Except RequestError Nat × Engine :=
  match e.pools.onFresh h fun t => t.insert keyDigest key r.owner r.tags with
  | none => (.error (.poolNotFound r.pool), e)
  | some (.error err, pools) => (.error (.ofAlloc r.pool err), { e with pools })
  | some (.ok placement, pools) =>
    match placement.outcome, e.conflicts with
    | .inserted, _ => (.ok placement.index, { e with pools, pacer := e.pacer.reset r.pool })
    | .existing, _ => (.ok placement.index, { e with pools })
    | .conflict _ _, .keepExisting => (.ok placement.index, { e with pools })
    | .conflict owner _, .reject =>
      (.error (.ownershipConflict r.pool key owner), { e with pools })

/-- Releases the key in the table of a handle that was fetched for the request. A key that holds no
slot is released already. -/
def unplace (e : Engine) (h : Handle) (r : Request) (key : String) :
    Except RequestError Unit × Engine :=
  match e.pools.onFresh h fun t => t.delete keyDigest key with
  | none => (.error (.poolNotFound r.pool), e)
  | some (none, pools) => (.ok (), { e with pools })
  | some (some _, pools) => (.ok (), { e with pools, pacer := e.pacer.reset r.pool })

/-- The index that the key holds from now on. -/
def register (e : Engine) (r : Request) : Except RequestError Nat × Engine :=
  match e.accept r with
  | .error err => (.error err, e)
  | .ok key =>
    match e.pools.handle? r.pool with
    | none => (.error (.poolNotFound r.pool), e)
    | some h => e.place h r key

/-- The key holds no slot from now on. -/
def deregister (e : Engine) (r : Request) : Except RequestError Unit × Engine :=
  match e.accept r with
  | .error err => (.error err, e)
  | .ok key =>
    match e.pools.handle? r.pool with
    | none => (.error (.poolNotFound r.pool), e)
    | some h => e.unplace h r key

def allocate (e : Engine) (pool : PoolId) (owner key : String) (tags : Option Tags) :
    Except RequestError Nat × Engine :=
  e.register (.forKey pool owner key tags)

def release (e : Engine) (pool : PoolId) (owner key : String) (tags : Option Tags) :
    Except RequestError Unit × Engine :=
  e.deregister (.forKey pool owner key tags)

end Engine

end IndexPools
