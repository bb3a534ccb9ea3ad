import IndexPools.Manifest
import IndexPools.Settings

/-!
# The service

Reads the settings from the environment, loads the manifest if one is named, and then runs one pass
per tick until the process is stopped, and none after a pass that ends early.
-/

namespace IndexPools

namespace Service

def environment : IO (String → Option String) := do
  let values ← Settings.names.mapM fun name => do return (name, ← IO.getEnv name)
  return fun name => (values.lookup name).join

def readFile (path : String) : IO (Except ReadFault ByteArray) := do
  try
    return .ok (← IO.FS.readBinFile path)
  catch
    | .noFileOrDirectory _ _ _ => return .error .notFound
    | e => return .error (.other (toString e))

def loadStore (settings : Settings) : IO (Except ManifestError Store) := do
  match settings.manifestPath with
  | none => return .ok .empty
  | some path => return Manifest.loadFile path (← readFile path)

/-- Waits in steps, since one wait is limited to 32 bits. -/
def wait (ms : Millis) : IO Unit := do
  for _ in [0 : ms / 1000000] do
    IO.sleep 1000000
  IO.sleep (UInt32.ofNat (ms % 1000000))

def report (s : PassStats) : IO Unit := do
  if s.hasChanges then
    IO.println s!"pass: registers allocated {s.registersAllocated}, released {s.registersReleased}"
    IO.println s!"pass: registries synced {s.registriesSynced}, deleted {s.registriesDeleted}"
  if 0 < s.registersFailed || 0 < s.registriesFailed then
    IO.println s!"pass: registers failed {s.registersFailed}"
    IO.println s!"pass: registries failed {s.registriesFailed}"

/-- Nothing is done any more, until the process is stopped. -/
partial def idle : IO UInt32 := do
  wait 1000000
  idle

/-- A pass that ends early is the last one; the process goes on without. -/
partial def serve (settings : Settings) (e : Engine) (schedule : Schedule) : IO UInt32 := do
  let p := e.pass settings.policy schedule (← IO.monoMsNow)
  if p.overflow then
    IO.eprintln overflowMessage
    idle
  else
    report p.stats
    wait settings.tickInterval
    serve settings p.engine p.schedule

def fail (messages : List String) : IO UInt32 := do
  for m in messages do
    IO.eprintln m
  return 1

end Service

end IndexPools

open IndexPools in
def main : IO UInt32 := do
  match Settings.ofVars (← Service.environment) with
  | .error e => Service.fail (e.message :: e.causes)
  | .ok settings =>
    match ← Service.loadStore settings with
    | .error e =>
      Service.fail [ManifestError.context (settings.manifestPath.getD ""), e.message]
    | .ok store => Service.serve settings (settings.engine store) .empty
