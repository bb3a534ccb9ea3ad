import IndexPools.PoolId

/-!
# Pacing

After a key was placed or released, the registry that reports on the pool is stale, and is visited
again soon; then less and less often. A pool's pace level counts those visits: a change sets it back
to 0 (`Pacer.reset`), and each delay that is asked for advances it by one, up to the pacer's cap
(`Pacer.nextDelay`). A pool that is not tracked reports the inactive level, which lies above every
level that a tracked pool can reach, since the cap stays below it (`Pacer.cap_lt_inactive`).
-/

namespace IndexPools

/-- Durations and moments are counted in milliseconds. -/
abbrev Millis := Nat

def Millis.ofSeconds (s : Nat) : Millis := s * 1000

structure PaceLevel where
  value : UInt32
deriving DecidableEq, Repr

namespace PaceLevel

/-- The level of a pool that is not tracked. -/
def inactive : PaceLevel := ⟨4294967295⟩

def isActive (l : PaceLevel) : Bool := l.value != inactive.value

def text (l : PaceLevel) : String :=
  if l.isActive then toString l.value.toNat else "inactive"

end PaceLevel

/-- The delays before the next visit: right after a change, then twice the short one, then the
normal interval. -/
structure PacePolicy where
  veryShortWait : Millis
  shortWait : Millis
  interval : Millis
deriving DecidableEq, Repr

namespace PacePolicy

def standard : PacePolicy where
  veryShortWait := Millis.ofSeconds 1
  shortWait := Millis.ofSeconds 5
  interval := Millis.ofSeconds 60

def delayFor (p : PacePolicy) (l : PaceLevel) : Millis :=
  if l.value = 0 then p.veryShortWait
  else if l.value = 1 ∨ l.value = 2 then p.shortWait
  else p.interval

end PacePolicy

/-- The pace levels of the tracked pools, none above `cap`. -/
structure Pacer where
  cap : UInt32
  levels : Std.ExtTreeMap PoolId UInt32
deriving DecidableEq

namespace Pacer

def defaultCap : UInt32 := 3

/-- The inactive level is kept out of reach. -/
def withCap (cap : UInt32) : Pacer :=
  ⟨if cap < PaceLevel.inactive.value then cap else PaceLevel.inactive.value - 1, ∅⟩

def level (p : Pacer) (pool : PoolId) : PaceLevel :=
  match p.levels[pool]? with
  | some l => ⟨l⟩
  | none => .inactive

/-- A tracked pool keeps its level. -/
def track (p : Pacer) (pool : PoolId) : Pacer :=
  match p.levels[pool]? with
  | some _ => p
  | none => { p with levels := p.levels.insert pool 0 }

def forget (p : Pacer) (pool : PoolId) : Pacer :=
  { p with levels := p.levels.erase pool }

/-- A pool that is not tracked stays so. -/
def reset (p : Pacer) (pool : PoolId) : Pacer :=
  match p.levels[pool]? with
  | some _ => { p with levels := p.levels.insert pool 0 }
  | none => p

def increment (p : Pacer) (pool : PoolId) : Pacer :=
  match p.levels[pool]? with
  | some l =>
    let next := l + 1
    { p with levels := p.levels.insert pool (if next < p.cap then next else p.cap) }
  | none => p

/-- The delay is chosen by the level before it is advanced; at the cap, and for a pool that is not
tracked, it is the normal interval. -/
def nextDelay (p : Pacer) (pool : PoolId) (policy : PacePolicy) : Millis × Pacer :=
  match p.levels[pool]? with
  | some l =>
    if l < p.cap then
      (policy.delayFor ⟨l⟩, { p with levels := p.levels.insert pool (l + 1) })
    else (policy.interval, p)
  | none => (policy.interval, p)

def size (p : Pacer) : Nat := p.levels.size

theorem cap_lt_inactive (cap : UInt32) : (withCap cap).cap < PaceLevel.inactive.value := by
  unfold withCap
  split
  · assumption
  · decide

end Pacer

end IndexPools
