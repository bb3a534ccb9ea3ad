import IndexPools.Engine.Reconcile

/-!
# Passes

One pass reconciles every register, in the order of their keys, and then every registry that is due
(`Engine.pass`). A registry is due when it has no deadline, when its deadline has come, or when its
pace level fell below the level that was recorded with the deadline (`Schedule.isDue`). A deadline
is the moment of the visit plus the delay that the visit asks for (`deadlineAfter?`); one that lies
beyond all that a clock can show ends the pass there and then, with all that was done before in
place (`Pass.overflow`).
-/

namespace IndexPools

structure Deadline where
  due : Millis
  level : PaceLevel
deriving DecidableEq

/-- The next visit of each registry. -/
structure Schedule where
  deadlines : Std.ExtTreeMap PoolId Deadline
deriving DecidableEq

namespace Schedule

def empty : Schedule := ⟨∅⟩

def deadline? (s : Schedule) (pool : PoolId) : Option Millis :=
  s.deadlines[pool]?.map Deadline.due

def size (s : Schedule) : Nat := s.deadlines.size

def isDue (s : Schedule) (pool : PoolId) (now : Millis) (level : PaceLevel) : Bool :=
  match s.deadlines[pool]? with
  | none => true
  | some d => d.due ≤ now || level.value < d.level.value

def set (s : Schedule) (pool : PoolId) (due : Millis) (level : PaceLevel) : Schedule :=
  ⟨s.deadlines.insert pool ⟨due, level⟩⟩

def remove (s : Schedule) (pool : PoolId) : Schedule := ⟨s.deadlines.erase pool⟩

/-- Forgets the registries that the store no longer has. -/
def retain (s : Schedule) (store : Store) : Schedule :=
  ⟨s.deadlines.filter fun pool _ => store.registries.contains pool⟩

end Schedule

/-- The last second in which a deadline can lie. Moments are read off a clock that counts its seconds
in 63 bits. -/
def lastDueSecond : Nat := 9223372036854775807

def deadlineAfter? (now delay : Millis) : Option Millis :=
  let due := now + delay
  if due / 1000 ≤ lastDueSecond then some due else none

def overflowMessage : String := "overflow when adding duration to instant"

/-- What a pass did. No record is counted twice, so that counters of 32 bits would do as well for a
store of fewer than 2 ^ 32 records. -/
structure PassStats where
  registersAllocated : Nat
  registersReleased : Nat
  registersFailed : Nat
  registriesSynced : Nat
  registriesBlocked : Nat
  registriesDeleted : Nat
  registriesFailed : Nat
deriving DecidableEq, Repr

namespace PassStats

def zero : PassStats := ⟨0, 0, 0, 0, 0, 0, 0⟩

/-- A record changed or disappeared; a status that was written does not count. -/
def hasChanges (s : PassStats) : Bool :=
  0 < s.registersAllocated || 0 < s.registersReleased || 0 < s.registriesDeleted

/-- An index that was recorded before is not counted. -/
def countRegister (s : PassStats) : Except ReconcileError RegisterOutcome → PassStats
  | .ok (.allocated _ true) => { s with registersAllocated := s.registersAllocated + 1 }
  | .ok (.allocated _ false) => s
  | .ok .released => { s with registersReleased := s.registersReleased + 1 }
  | .error _ => { s with registersFailed := s.registersFailed + 1 }

def countRegistry (s : PassStats) : Except ReconcileError RegistryOutcome → PassStats
  | .ok (.synced _ _) => { s with registriesSynced := s.registriesSynced + 1 }
  | .ok (.blocked _ _) => { s with registriesBlocked := s.registriesBlocked + 1 }
  | .ok .deleted => { s with registriesDeleted := s.registriesDeleted + 1 }
  | .error _ => { s with registriesFailed := s.registriesFailed + 1 }

end PassStats

/-- The delay that a visit of a registry asks for; a failed visit is repeated after a short wait,
and a registry that is gone is not visited again. -/
def requeueAfter (policy : PacePolicy) : Except ReconcileError RegistryOutcome → Option Millis
  | .ok (.synced _ requeue) => some requeue
  | .ok (.blocked _ requeue) => some requeue
  | .ok .deleted => none
  | .error _ => some policy.shortWait

/-- How far a pass has come. -/
structure Pass where
  engine : Engine
  schedule : Schedule
  stats : PassStats
  overflow : Bool
deriving DecidableEq

namespace Pass

def visitRegister (p : Pass) (r : RegisterRecord) : Pass :=
  let answer := p.engine.reconcileRegister r
  { p with engine := answer.2, stats := p.stats.countRegister answer.1 }

def visitRegisters : List RegisterRecord → Pass → Pass
  | [], p => p
  | r :: rs, p => visitRegisters rs (p.visitRegister r)

/-- Reconciles one registry and sets its next deadline, at the pace level that the visit left. -/
def visitRegistry (policy : PacePolicy) (now : Millis) (p : Pass) (pool : PoolId) : Pass :=
  let answer := p.engine.reconcileRegistry policy pool
  let p := { p with engine := answer.2, stats := p.stats.countRegistry answer.1 }
  match requeueAfter policy answer.1 with
  | none => { p with schedule := p.schedule.remove pool }
  | some delay =>
    match deadlineAfter? now delay with
    | none => { p with overflow := true }
    | some due => { p with schedule := p.schedule.set pool due (p.engine.paceLevel pool) }

/-- Visits the registries that are due, in order, as long as every deadline can be formed. -/
def visitRegistries (policy : PacePolicy) (now : Millis) : List PoolId → Pass → Pass
  | [], p => p
  | pool :: pools, p =>
    if p.schedule.isDue pool now (p.engine.paceLevel pool) then
      let p := p.visitRegistry policy now pool
      if p.overflow then p else visitRegistries policy now pools p
    else visitRegistries policy now pools p

end Pass

namespace Engine

/-- The registers are those that the store held when the pass began, the registries those that it
holds after the registers were reconciled. -/
def pass (e : Engine) (policy : PacePolicy) (schedule : Schedule) (now : Millis) : Pass :=
  let p := Pass.visitRegisters e.store.registerList ⟨e, schedule, .zero, false⟩
  let p := { p with schedule := p.schedule.retain p.engine.store }
  Pass.visitRegistries policy now p.engine.store.registryIds p

/-- Passes at one moment, on a schedule of their own, up to the first that ends early. -/
def passes (policy : PacePolicy) (now : Millis) :
    (ticks : Nat) → Engine → Schedule → Bool × Engine
  | 0, e, _ => (true, e)
  | ticks + 1, e, schedule =>
    let p := e.pass policy schedule now
    if p.overflow then (false, p.engine) else passes policy now ticks p.engine p.schedule

end Engine

end IndexPools
