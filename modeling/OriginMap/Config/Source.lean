import OriginMap.Config.LayerReading
import OriginMap.Files.Script
import OriginMap.Toml.Document

/-!
# Sources of settings

Settings come from defaults, from a file, and from environment variables. Each source gives a layer or
fails; the layers are laid over one another by precedence, and what comes out is checked.
-/

namespace OriginMap.Config

open Files

/-- Why the value of a variable is no setting. -/
inductive BadValue where
  /-- It names no mode. -/
  | mode (unknown : Accumulation.Unknown)
  /-- It is no 32-bit number. -/
  | word (text : String)
  /-- It is no 64-bit number. -/
  | long (text : String)
  deriving DecidableEq, Repr

/-- The wording of the cause. -/
def BadValue.message : BadValue → String
  | mode unknown => unknown.message
  | word text => "invalid u32 value '" ++ text ++ "'"
  | long text => "invalid u64 value '" ++ text ++ "'"

/-- Why there are no settings. -/
inductive ConfigError where
  /-- A file cannot be read. -/
  | unreadable (file : String)
  /-- A file holds no layer. -/
  | malformed (file : String)
  /-- The value of a variable is no setting. -/
  | invalidValue (name : String) (cause : BadValue)
  /-- Artifacts would be kept no time at all. -/
  | zeroRetention
  /-- Sweeps would follow on one another without a pause. -/
  | zeroInterval
  deriving DecidableEq, Repr

/-- The wording of the error. -/
def ConfigError.message : ConfigError → String
  | unreadable file => "failed to read config file " ++ file
  | malformed file => "failed to parse config file " ++ file
  | invalidValue name cause => "invalid value for " ++ name ++ ": " ++ cause.message
  | zeroRetention => "configuration validation failed: retention_days must be at least 1; " ++
      "a zero retention would sweep every artifact"
  | zeroInterval => "configuration validation failed: sweep_interval_secs must be greater than zero"

/-- Environment variables with their values; the first of a name counts. -/
abbrev Environment := List (String × String)

/-- The variable, with its value, that an entry of an environment sets: the name ends at the first
equals sign. -/
def assignment? (entry : String) : Option (String × String) :=
  match entry.toList.dropWhile (· ≠ '=') with
  | [] => none
  | _ :: value => some (String.ofList (entry.toList.takeWhile (· ≠ '=')), String.ofList value)

/-- The value of a variable, unless it is empty. -/
def Environment.value? (environment : Environment) (name : String) : Option String :=
  (environment.lookup name).filter (!·.isEmpty)

/-- Reads a number below the bound from a variable, if it is set. -/
def Environment.number? (environment : Environment) (name : String) (bound : Nat)
    (bad : String → BadValue) : Except ConfigError (Option Nat) :=
  match environment.value? name with
  | none => .ok none
  | some text =>
    match Text.unsigned? bound text with
    | some n => .ok (some n)
    | none => .error (.invalidValue name (bad text))

/-- Reads a mode from a variable, if it is set. -/
def Environment.mode? (environment : Environment) (name : String) :
    Except ConfigError (Option Accumulation) :=
  match environment.value? name with
  | none => .ok none
  | some text =>
    match Accumulation.read text with
    | .ok mode => .ok (some mode)
    | .error unknown => .error (.invalidValue name (.mode unknown))

/-- The layer that environment variables set. The mode is judged first, then the numbers. -/
def Environment.layer (environment : Environment) : Except ConfigError Layer := do
  let accumulation ← environment.mode? "RETRACE_ACCUMULATION"
  let days ← environment.number? "RETRACE_RETENTION_DAYS" UInt32.size .word
  let interval ← environment.number? "RETRACE_SWEEP_INTERVAL_SECS" UInt64.size .long
  return {
    store := some {
      dataDir := environment.value? "RETRACE_DATA_DIR"
      retentionDays := days.map UInt32.ofNat
      sweepIntervalSecs := interval.map UInt64.ofNat
      accumulation }
    logging := some { level := environment.value? "RETRACE_LOG_LEVEL" } }

/-- How much a source counts. -/
inductive Precedence where
  /-- Least. -/
  | defaults
  /-- More than defaults. -/
  | file
  /-- Most. -/
  | environment
  deriving DecidableEq, Repr

/-- Precedences in their order. -/
def Precedence.rank : Precedence → Nat
  | defaults => 10
  | file => 20
  | environment => 50

/-- A source of settings: how much it counts, and how its layer is loaded. -/
structure Source where
  /-- How much it counts. -/
  precedence : Precedence
  /-- Loads the layer. -/
  load : Script (Except ConfigError Layer)

namespace Source

/-- The layer of a file with these contents. -/
def fileLayer (name : String) (contents : Bytes) : Except ConfigError Layer :=
  match ofUtf8? contents with
  | none => .error (.unreadable name)
  | some text =>
    match Toml.parse text >>= FromToml.layer? with
    | some layer => .ok layer
    | none => .error (.malformed name)

/-- The defaults, which set nothing. -/
def defaults : Source where
  precedence := .defaults
  load := return .ok {}

/-- A TOML file; unless it is required, it may be missing. -/
def file (name : String) (required : Bool) : Source where
  precedence := .file
  load := do
    match ← Script.perform (.read (.ofText name)) with
    | .ok contents => return fileLayer name contents
    | .error trouble =>
      if trouble = .missing ∧ required = false then return .ok {} else return .error (.unreadable name)

/-- Environment variables. -/
def environment (values : Environment) : Source where
  precedence := .environment
  load := return values.layer

/-- A given layer. -/
def fixed (precedence : Precedence) (layer : Layer) : Source where
  precedence
  load := return .ok layer

end Source

/-- Sources in the order of their precedence; those of one precedence stay in the order given. -/
def byPrecedence (sources : List Source) : List Source :=
  sources.mergeSort fun a b => a.precedence.rank ≤ b.precedence.rank

/-- Loads sources in a row, each layer over those before. The first failure counts. -/
def loadOver (lower : Layer) : List Source → Script (Except ConfigError Layer)
  | [] => return .ok lower
  | source :: sources => do
    match ← source.load with
    | .error e => return .error e
    | .ok layer => loadOver (layer.over lower) sources

/-- The settings of a layer, if they make sense. -/
def checked (layer : Layer) : Except ConfigError Settings :=
  let settings := layer.settle
  if settings.store.retentionDays = 0 then .error .zeroRetention
  else if settings.store.sweepIntervalSecs = 0 then .error .zeroInterval
  else .ok settings

/-- Loads settings from sources in any order. -/
def load (sources : List Source) : Script (Except ConfigError Settings) := do
  match ← loadOver {} (byPrecedence sources) with
  | .error e => return .error e
  | .ok layer => return checked layer

/-- The file that is read when none is named. -/
def systemFile : String := "/etc/retrace/retrace.toml"

/-- The sources that the program uses: defaults, the named file or the system's one, and variables. -/
def standardSources (file : Option String) (environment : Environment) : List Source :=
  [.defaults,
    match file with
    | some name => .file name true
    | none => .file systemFile false,
    .environment environment]

end OriginMap.Config
