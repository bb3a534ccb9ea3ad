import IndexPools.Engine.Pass
import IndexPools.Text.Numeral
import IndexPools.Text.Quoted

/-!
# Settings

Settings are read from named variables (`Settings.ofVars`). A variable that is not set has a
default, and the first variable that cannot be read, in the order of the fields, is the error.
-/

namespace IndexPools

structure Settings where
  logLevel : String
  manifestPath : Option String
  tickInterval : Millis
  policy : PacePolicy
  paceCap : UInt32
  conflicts : ConflictPolicy
deriving DecidableEq

inductive SettingsError where
  | badNumber (key value : String) (fault : NumeralFault)
  | zeroTick
  | badConflictPolicy (value : String)
deriving DecidableEq

namespace Settings

def logLevelVar : String := "NIREG_LOG_LEVEL"
def manifestVar : String := "NIREG_MANIFEST"
def tickVar : String := "NIREG_TICK_INTERVAL_MS"
def veryShortVar : String := "NIREG_VERY_SHORT_WAIT_SECS"
def shortVar : String := "NIREG_SHORT_WAIT_SECS"
def intervalVar : String := "NIREG_RECONCILE_INTERVAL_SECS"
def paceCapVar : String := "NIREG_MAX_PACE_LEVEL"
def conflictVar : String := "NIREG_CONFLICT_POLICY"

/-- All variables that are read. -/
def names : List String :=
  [logLevelVar, manifestVar, tickVar, veryShortVar, shortVar, intervalVar, paceCapVar, conflictVar]

end Settings

namespace SettingsError

def message : SettingsError → String
  | .badNumber key value _ => "invalid " ++ key ++ ": " ++ Text.quote value
  | .zeroTick => "invalid " ++ Settings.tickVar ++ ": the tick interval must be non-zero"
  | .badConflictPolicy _ => "invalid " ++ Settings.conflictVar

/-- What lies behind the message. -/
def causes : SettingsError → List String
  | .badNumber _ _ fault => [fault.message]
  | .zeroTick => []
  | .badConflictPolicy value => [ConflictPolicy.unknownMessage value]

end SettingsError

namespace Settings

def maxUInt32 : Nat := 4294967295
def maxUInt64 : Nat := 18446744073709551615

def defaultTick : Millis := 500

/-- The number in a variable, or `default` when the variable is not set. -/
def number (vars : String → Option String) (key : String) (bound default : Nat) :
    Except SettingsError Nat :=
  match vars key with
  | none => .ok default
  | some value => (Numeral.read bound value).mapError (.badNumber key value)

def seconds (vars : String → Option String) (key : String) (default : Millis) :
    Except SettingsError Millis :=
  (number vars key maxUInt64 (default / 1000)).map Millis.ofSeconds

def conflictPolicy (vars : String → Option String) : Except SettingsError ConflictPolicy :=
  match vars conflictVar with
  | none => .ok .keepExisting
  | some value =>
    match ConflictPolicy.ofName? value with
    | some policy => .ok policy
    | none => .error (.badConflictPolicy value)

/-- An empty manifest path counts as none. -/
def ofVars (vars : String → Option String) : Except SettingsError Settings := do
  let tickInterval ← number vars tickVar maxUInt64 defaultTick
  if tickInterval = 0 then throw .zeroTick
  let standard := PacePolicy.standard
  let veryShortWait ← seconds vars veryShortVar standard.veryShortWait
  let shortWait ← seconds vars shortVar standard.shortWait
  let interval ← seconds vars intervalVar standard.interval
  let paceCap ← number vars paceCapVar maxUInt32 Pacer.defaultCap.toNat
  let conflicts ← conflictPolicy vars
  return {
    logLevel := (vars logLevelVar).getD "info"
    manifestPath := (vars manifestVar).filter (· ≠ "")
    tickInterval
    policy := ⟨veryShortWait, shortWait, interval⟩
    paceCap := UInt32.ofNat paceCap
    conflicts }

/-- An engine over a store, with the settings' pacing and conflict policy. -/
def engine (s : Settings) (store : Store) : Engine :=
  .start store s.paceCap s.conflicts

end Settings

end IndexPools
