import IndexPools.Engine.Placement

/-!
# Reconciling one record

A register is given its index, or is released and removed once it is marked for deletion
(`Engine.reconcileRegister`). A registry has its pool set up and the pool's status written back, or
is removed together with its pool once it is marked for deletion and the pool holds no key
(`Engine.reconcileRegistry`). The delay until the next visit comes from the pacer.
-/

namespace IndexPools

inductive ReconcileError where
  | request (error : RequestError)
  | store (error : StoreError)
  | badReference (error : IdError)
deriving DecidableEq

namespace ReconcileError

def message : ReconcileError → String
  | .request error => error.message
  | .store error => "store error: " ++ error.message
  | .badReference error => "invalid registry reference: " ++ error.message

def isRetryable : ReconcileError → Bool
  | .request error => error.isRetryable
  | _ => false

end ReconcileError

/-- What became of a register; `changed` when the recorded index was another one before. -/
inductive RegisterOutcome where
  | allocated (index : Nat) (changed : Bool)
  | released
deriving DecidableEq

/-- What became of a registry, with the delay until its next visit. -/
inductive RegistryOutcome where
  | synced (status : RegistryStatus) (requeue : Millis)
  | blocked (allocated : Nat) (requeue : Millis)
  | deleted
deriving DecidableEq

namespace Engine

def reconcileRegister (e : Engine) (r : RegisterRecord) :
    Except ReconcileError RegisterOutcome × Engine :=
  match r.request with
  | .error err => (.error (.badReference err), e)
  | .ok request =>
    if r.deleting then
      match e.deregister request with
      | (.error err, e) => (.error (.request err), e)
      | (.ok (), e) =>
        match e.store.removeRegister r.key with
        | .error err => (.error (.store err), e)
        | .ok store => (.ok .released, { e with store })
    else
      match e.register request with
      | (.error err, e) => (.error (.request err), e)
      | (.ok index, e) =>
        if r.index = some index then (.ok (.allocated index false), e)
        else
          match e.store.setIndex r.key index with
          | .error err => (.error (.store err), e)
          | .ok store => (.ok (.allocated index true), { e with store })

/-- The pool goes first, then the record. -/
def finishDeletion (e : Engine) (policy : PacePolicy) (pool : PoolId) :
    Except ReconcileError RegistryOutcome × Engine :=
  let allocated := (e.snapshot pool).allocated
  if 0 < allocated then
    let d := e.nextDelay pool policy
    (.ok (.blocked allocated d.1), d.2)
  else
    let e := (e.deletePool pool).2
    match e.store.removeRegistry pool with
    | .error err => (.error (.store err), e)
    | .ok store => (.ok .deleted, { e with store })

/-- Writes the pool's status into its record, unless it was recorded already. -/
def mirrorStatus (e : Engine) (pool : PoolId) (recorded : Option RegistryStatus) :
    Except StoreError Engine :=
  if recorded = some (e.status pool) then .ok e
  else
    match e.store.setStatus pool (e.status pool) with
    | .error err => .error err
    | .ok store => .ok { e with store }

def reconcileRegistry (e : Engine) (policy : PacePolicy) (pool : PoolId) :
    Except ReconcileError RegistryOutcome × Engine :=
  match e.store.registry pool with
  | .error err => (.error (.store err), e)
  | .ok record =>
    if record.deleting then e.finishDeletion policy pool
    else
      match e.initDeclared pool with
      | (.error err, e) => (.error (.request err), e)
      | (.ok _, e) =>
        match e.mirrorStatus pool record.status with
        | .error err => (.error (.store err), e)
        | .ok e =>
          let d := e.nextDelay pool policy
          (.ok (.synced (e.status pool) d.1), d.2)

end Engine

end IndexPools
