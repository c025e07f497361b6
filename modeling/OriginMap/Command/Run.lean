import OriginMap.Command.Request
import OriginMap.Config.EnvFile
import OriginMap.Json.Value
import OriginMap.Log.Directive
import OriginMap.Resolve
import OriginMap.Retention

/-!
# Runs of the program

What a command line does, as a script: it reads settings, opens the store and acts on it. A run ends
with a text to print or with a failure, or it goes on watching the store.
-/

namespace OriginMap.Command

open Files

/-- Why a task fails. -/
inductive Failure where
  /-- There are no settings. -/
  | noSettings (cause : Config.ConfigError)
  /-- The store cannot be opened. -/
  | noStore (folder : String) (cause : StorageError)
  /-- The file to take in cannot be read. -/
  | unreadable (file : String) (trouble : Trouble)
  /-- The artifact is not taken in. -/
  | notIngested (application version : String) (cause : IngestError)
  /-- The position cannot be traced back. -/
  | unresolved (file : String) (line column : UInt32) (miss : Miss)
  /-- The text of the source is not known. -/
  | noContent (path application version : String)
  deriving DecidableEq, Repr

/-- A 32-bit number in decimal notation. -/
def wordText (n : UInt32) : String := String.ofList (Text.padded 1 n.toNat)

/-- The wording of the failure. -/
def Failure.message : Failure → String
  | noSettings _ => "failed to load configuration"
  | noStore folder _ => "failed to open artifact store at " ++ folder
  | unreadable file _ => "failed to read " ++ file
  | notIngested application version _ => "failed to ingest " ++ application ++ "@" ++ version
  | unresolved file line column miss =>
    "unresolved " ++ file ++ ":" ++ wordText line ++ ":" ++ wordText column ++ ": " ++ miss.message
  | noContent path application version =>
    "no source content for " ++ path ++ " in " ++ application ++ "@" ++ version

/-- The wording of what lies behind the failure, where that is more than the failure itself. -/
def Failure.cause? : Failure → Option String
  | noSettings cause => some cause.message
  | noStore _ cause => some cause.message
  | unreadable _ trouble => some trouble.message
  | notIngested _ _ cause => some cause.message
  | unresolved _ _ _ _ | noContent _ _ _ => none

/-- Why a run stops at once. -/
inductive Stop where
  /-- The file of variables gives a variable a value that it cannot hold. -/
  | unsettableVariable
  /-- A directive of the log filter is cut inside a character. -/
  | brokenLogFilter
  /-- The sizes of the artifacts come to more than a word holds. -/
  | oversizedTotal
  deriving DecidableEq, Repr

/-- The wording of the stop. -/
def Stop.message : Stop → String
  | unsettableVariable => "a variable cannot hold a NUL character"
  | brokenLogFilter => "a directive of the log filter is cut inside a character"
  | oversizedTotal => "the sizes of the artifacts come to more than a word holds"

/-- How a run ends. -/
inductive Outcome where
  /-- It prints a text. -/
  | printed (text : String)
  /-- It fails. -/
  | failed (failure : Failure)
  /-- The command line asks for nothing. -/
  | misused (misuse : Misuse)
  /-- It stops at once. -/
  | stopped (stop : Stop)
  /-- It has swept the store once and goes on. -/
  | watching (sweeper : Sweeper) (store : Store)

/-- The exit code. -/
def Outcome.code : Outcome → Nat
  | printed _ | watching _ _ => 0
  | failed _ => 1
  | misused _ => 2
  | stopped _ => 101

/-- What is printed. -/
def Outcome.output : Outcome → String
  | printed text => text
  | _ => ""

/-! ## Reports -/

/-- A document and the line feed after it. -/
def document (value : Json.Value) : String := value.render ++ "\n"

/-- The report on an artifact that was taken in. -/
def ingestReport (application version : String) (size : Nat) : Json.Value :=
  .object [("application_id", .text application), ("size_bytes", .natural size),
    ("version", .text version)]

/-- The report on a location, with the lines around it where they are known. -/
def locationReport (location : Location) (context : Option Context) : Json.Value :=
  let lines (texts : List String) : Json.Value := .list (texts.map .text)
  let around := match context with
    | none => []
    | some c => [("context", Json.Value.object [("context_line", .text c.line),
        ("post_context", lines c.post), ("pre_context", lines c.pre)])]
  .object ([("column", .natural location.column.toNat)] ++ around ++
    [("line", .natural location.line.toNat), ("name", .ofText? location.name),
      ("source_path", .text location.sourcePath)])

/-- The report on one artifact of a store. -/
def artifactReport (a : ArtifactStat) : Json.Value :=
  .object [
    ("key", .object [("application_id", .text a.key.application), ("version", .text a.key.version)]),
    ("size_bytes", .natural a.sizeBytes.toNat), ("stored_at", .text (String.ofList a.storedAt.timestamp))]

/-- The report on a store. -/
def statsReport (s : Stats) : Json.Value :=
  .object [("count", .natural s.count), ("total_bytes", .natural s.totalBytes.toNat),
    ("per_artifact", .list (s.perArtifact.map artifactReport))]

/-- The report on a sweep. -/
def sweepReport (removed : Nat) : Json.Value := .object [("removed", .natural removed)]

/-! ## Tasks -/

/-- The sweeper of a single sweep: the one that the settings describe, but with the days that the command
line gives, if it gives any. -/
def sweeperOf (settings : Config.StoreSettings) : Option UInt32 → Sweeper
  | none => .ofSettings settings
  | some days => { Sweeper.ofSettings settings with maxAge := .days days.toNat }

/-- What an action does with an open store. -/
def Action.run (settings : Config.StoreSettings) (now : Time.Instant) (store : Store) :
    Action → Script Outcome
  | ingest application version file => do
    match ← Script.perform (.read (.ofText file)) with
    | .error trouble => return .failed (.unreadable file trouble)
    | .ok data =>
      match ← store.ingestAt application version data now with
      | (.error cause, _) => return .failed (.notIngested application version cause)
      | (.ok (), _) => return .printed (document (ingestReport application version data.length))
  | resolve application version file line column context => do
    let answer ← match context with
      | none => do
        let (found, _) ← store.resolve application version file line column
        pure (found.map fun location => locationReport location none)
      | some count => do
        let (found, _) ← store.resolveWithContext application version file line column count
        pure (found.map fun frame => locationReport frame.location frame.context)
    match answer with
    | .error miss => return .failed (.unresolved file line column miss)
    | .ok report => return .printed (document report)
  | source application version path => do
    match ← store.sourceContent application version path with
    | (none, _) => return .failed (.noContent path application version)
    | (some content, _) => return .printed content
  | stats => do
    match ← store.stats with
    | none => return .stopped .oversizedTotal
    | some totals => return .printed (document (statsReport totals))
  | sweep maxAgeDays => do
    let (removed, _) ← (sweeperOf settings maxAgeDays).runOnce store now
    return .printed (document (sweepReport removed))
  | watch => do
    let sweeper := Sweeper.ofSettings settings
    let (_, store) ← sweeper.runOnce store now
    return .watching sweeper.start store

/-- What a task does. Settings come first, then logging, then the store. -/
def Task.run (environment : Config.Environment) (now : Time.Instant) (task : Task) :
    Script Outcome := do
  match ← Config.EnvFile.load? environment with
  | none => return .stopped .unsettableVariable
  | some environment =>
    match ← Config.load (Config.standardSources task.config environment) with
    | .error cause => return .failed (.noSettings cause)
    | .ok settings =>
      if Log.canStart (environment.lookup Log.variableName) settings.logging.level then
        let folder := task.dataDir.getD settings.store.dataDir
        match ← Store.openAt (.ofText folder) settings.store.accumulation {} with
        | .error cause => return .failed (.noStore folder cause)
        | .ok store => task.action.run settings.store now store
      else return .stopped .brokenLogFilter

/-- The name of the program and its version. -/
def versionText : String := "retrace 0.1.0\n"

/-- What the program does with the words of a command line. The file of settings that a variable names
is one of the process, not of the file that fills in variables. -/
def run (environment : Config.Environment) (now : Time.Instant) (words : List String) :
    Script Outcome :=
  match Request.read (environment.lookup "RETRACE_CONFIG") words with
  | .error misuse => return .misused misuse
  | .ok .version => return .printed versionText
  | .ok (.task task) => task.run environment now

end OriginMap.Command
