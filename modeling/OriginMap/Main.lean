import OriginMap.Command.Run
import Std.Time.DateTime.Timestamp

/-!
# The program

The command line. Scripts are run on real files, by the clock and with the variables of the process.
-/

namespace OriginMap.Program

open Files

/-- What kind of trouble a failed operation had. -/
def troubleOf : IO.Error → Trouble
  | .noFileOrDirectory .. => .missing
  | _ => .refused

/-- The answer of an operation on real files. -/
def attempt (operation : IO α) : IO (Except Trouble α) := do
  match ← operation.toBaseIO with
  | .ok answer => return .ok answer
  | .error e => return .error (troubleOf e)

/-- The text of a path that can be looked up. -/
def textOf (path : Path) : IO String :=
  if path.fits then return path.toText else throw (IO.userError "no path")

/-- Performs an operation on real files. -/
def perform : (operation : Operation) → IO operation.Answer
  | .read path => attempt do return (← IO.FS.readBinFile (← textOf path)).toList
  | .write path contents => attempt do IO.FS.writeBinFile (← textOf path) contents.toByteArray
  | .remove path => attempt do IO.FS.removeFile (← textOf path)
  | .rename source target => attempt do IO.FS.rename (← textOf source) (← textOf target)
  | .list folder => attempt do
    let entries ← (← IO.FS.realPath (← textOf folder)).readDir
    return entries.toList.map (·.fileName)
  | .makeFolder folder => attempt do IO.FS.createDir (← textOf folder)
  | .isFolder path => do
    match ← attempt do (← IO.FS.realPath (← textOf path)).isDir with
    | .ok found => return found
    | .error _ => return false
  | .whereabouts => attempt do return .ofText (← IO.currentDir).toString

/-- Runs a script on real files. -/
def runScript : Script α → IO α
  | .done result => return result
  | .step operation next => do
    let answer ← perform operation
    runScript (next answer)

/-- The present. -/
def now : IO Time.Instant := do
  let nanos := (← Std.Time.Timestamp.now).toNanosecondsSinceUnixEpoch.val
  return ⟨nanos.fdiv 1000000000, (nanos.fmod 1000000000).toNat⟩

/-- The variables that settings and the log filter are read from. -/
def knownNames : List String :=
  ["RETRACE_CONFIG", "RETRACE_DATA_DIR", "RETRACE_RETENTION_DAYS", "RETRACE_SWEEP_INTERVAL_SECS",
    "RETRACE_ACCUMULATION", "RETRACE_LOG_LEVEL", Log.variableName]

/-- The variables of the process: those that are read anyway, and all others where the system lists
them. -/
def environment : IO Config.Environment := do
  let known ← knownNames.filterMapM fun name => do
    return (← IO.getEnv name).map fun value => (name, value)
  match ← attempt (IO.FS.readBinFile "/proc/self/environ") with
  | .error _ => return known
  | .ok listed =>
    let entries := (listed.toList.splitOn 0).filterMap ofUtf8?
    return known ++ entries.filterMap Config.assignment?

/-- Lets so much time pass. -/
def pause (time : Time.Span) : IO Unit := do
  for _ in [0 : time.seconds] do
    IO.sleep 1000
  IO.sleep (UInt32.ofNat (time.nanos / 1000000))

/-- Sweeps again and again. -/
partial def watch (sweeper : Sweeper) (store : Store) : IO Unit := do
  pause sweeper.interval
  let (_, store) ← runScript (sweeper.runOnce store (← now))
  watch sweeper store

end OriginMap.Program

/-- Does what the words of the command line ask for, and gives the exit code. -/
def main (words : List String) : IO UInt32 := do
  let environment ← OriginMap.Program.environment
  let outcome ← OriginMap.Program.runScript
    (OriginMap.Command.run environment (← OriginMap.Program.now) words)
  IO.print outcome.output
  match outcome with
  | .printed _ => pure ()
  | .failed failure =>
    IO.eprintln ("Error: " ++ failure.message)
    if let some cause := failure.cause? then IO.eprintln ("\nCaused by:\n    " ++ cause)
  | .misused misuse => IO.eprintln ("error: " ++ misuse.message)
  | .stopped stop => IO.eprintln stop.message
  | .watching sweeper store => OriginMap.Program.watch sweeper store
  return UInt32.ofNat outcome.code
