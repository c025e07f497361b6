import OriginMap.Text.Decimal

/-!
# Requests

What the words of a command line ask for. Words are first sorted into options with their values and
plain words; options before the command and options after it are two levels, and each level takes an
option once. What is given after the command counts more, and a variable counts least.
-/

namespace OriginMap.Command

/-- An option that takes a value. -/
inductive Flag where
  /-- The file of settings. -/
  | config
  /-- The data directory. -/
  | dataDir
  /-- The number of lines of context. -/
  | context
  /-- The age in days from which artifacts are swept. -/
  | maxAgeDays
  deriving DecidableEq, Repr

/-- The name of an option, without its dashes. -/
def Flag.name : Flag → String
  | config => "config"
  | dataDir => "data-dir"
  | context => "context"
  | maxAgeDays => "max-age-days"

/-- All options. -/
def Flag.all : List Flag := [.config, .dataDir, .context, .maxAgeDays]

/-- Whether an option may stand on either level. -/
def Flag.isGlobal : Flag → Bool
  | config | dataDir => true
  | context | maxAgeDays => false

/-- Why a command line asks for nothing. -/
inductive Misuse where
  /-- A word is no option of the level that it stands on. -/
  | unknownOption (word : String)
  /-- An option has no value. -/
  | missingValue (flag : Flag)
  /-- An option is given twice on one level. -/
  | repeated (flag : Flag)
  /-- The value of an option or argument is not of its kind. -/
  | badValue (name value : String)
  /-- There is no command. -/
  | noCommand
  /-- A word is no command. -/
  | unknownCommand (word : String)
  /-- A command has too few or too many arguments. -/
  | wrongCount (command : String)
  deriving DecidableEq, Repr

/-- The wording of the error. -/
def Misuse.message : Misuse → String
  | unknownOption word => "unexpected argument '" ++ word ++ "' found"
  | missingValue flag => "a value is required for '--" ++ flag.name ++ "' but none was supplied"
  | repeated flag => "the argument '--" ++ flag.name ++ "' cannot be used multiple times"
  | badValue name value => "invalid value '" ++ value ++ "' for '" ++ name ++ "'"
  | noCommand => "a command is required"
  | unknownCommand word => "unrecognized command '" ++ word ++ "'"
  | wrongCount command => "wrong number of arguments for '" ++ command ++ "'"

/-- What a command does. -/
inductive Action where
  /-- Takes an artifact in from a file. -/
  | ingest (application version file : String)
  /-- Traces a position back. -/
  | resolve (application version file : String) (line column : UInt32) (context : Option UInt64)
  /-- Prints the text of a source. -/
  | source (application version path : String)
  /-- Reports on the store. -/
  | stats
  /-- Removes old artifacts. -/
  | sweep (maxAgeDays : Option UInt32)
  /-- Removes old artifacts again and again. -/
  | watch
  deriving DecidableEq, Repr

/-- An action with what is to be known before it. -/
structure Task where
  /-- The file of settings, if one is named. -/
  config : Option String
  /-- The data directory, if one is named. -/
  dataDir : Option String
  /-- The action. -/
  action : Action
  deriving DecidableEq, Repr

/-- What a command line asks for. -/
inductive Request where
  /-- The version of the program. -/
  | version
  /-- A task. -/
  | task (task : Task)
  deriving DecidableEq, Repr

/-! ## Words -/

/-- What words of a command line are, wherever they stand. -/
inductive Item where
  /-- An option and its value. -/
  | setting (flag : Flag) (value : String)
  /-- The option that asks for the version. -/
  | version (word : String)
  /-- The mark after which there are no options. -/
  | close
  /-- A word that is not an option. -/
  | plain (word : String)
  /-- A mistake. -/
  | mistake (misuse : Misuse)
  deriving DecidableEq, Repr

/-- Whether a word has the form of an option. A single dash has not. -/
def isOption (word : String) : Bool :=
  match word.toList with
  | '-' :: _ :: _ => true
  | _ => false

/-- The name in an option's word, and the value that is attached to it. -/
def longParts? (word : String) : Option (String × Option String) :=
  match word.toList with
  | '-' :: '-' :: text =>
    let name := String.ofList (text.takeWhile (· ≠ '='))
    match text.dropWhile (· ≠ '=') with
    | _ :: value => some (name, some (String.ofList value))
    | [] => some (name, none)
  | _ => none

/-- Whether a word asks for the version. -/
def asksVersion (word : String) : Bool :=
  word = "--version" || (match word.toList with
    | '-' :: 'V' :: _ => true
    | _ => false)

/-- What a word is on its own, or the option whose value is to follow it. -/
def ofWord (word : String) : Item ⊕ Flag :=
  if asksVersion word then .inl (.version word)
  else if isOption word then
    match longParts? word with
    | none => .inl (.mistake (.unknownOption word))
    | some (name, attached) =>
      match Flag.all.find? (·.name = name), attached with
      | none, _ => .inl (.mistake (.unknownOption word))
      | some flag, some value => .inl (.setting flag value)
      | some flag, none => .inr flag
  else .inl (.plain word)

/-- Sorts the words of a command line. The value of an option may follow as a word of its own, if it
has not the form of an option; nothing counts after an option without a value. -/
def items : List String → List Item
  | [] => []
  | word :: words =>
    if word = "--" then .close :: words.map .plain
    else
      match ofWord word with
      | .inl item => item :: items words
      | .inr flag =>
        match words with
        | [] => [.mistake (.missingValue flag)]
        | value :: rest =>
          if isOption value then [.mistake (.missingValue flag)] else .setting flag value :: items rest

/-! ## Levels -/

/-- The options of a level with their values. -/
abbrev Given := List (Flag × String)

/-- Adds an option that has not been given yet. A path must not be empty. -/
def Given.add (given : Given) (flag : Flag) (value : String) : Except Misuse Given :=
  if (given.lookup flag).isSome then .error (.repeated flag)
  else if flag.isGlobal ∧ value.isEmpty then .error (.badValue flag.name value)
  else .ok ((flag, value) :: given)

/-- The options and plain words after the command. -/
def afterCommand (allowed : Flag → Bool) (given : Given) :
    List Item → Except Misuse (Given × List String)
  | [] => .ok (given, [])
  | .setting flag value :: rest =>
    if allowed flag then do afterCommand allowed (← given.add flag value) rest
    else .error (.unknownOption flag.name)
  | .plain word :: rest => do
    let (given, words) ← afterCommand allowed given rest
    return (given, word :: words)
  | .close :: rest => afterCommand allowed given rest
  | .version word :: _ => .error (.unknownOption word)
  | .mistake misuse :: _ => .error misuse

/-- A number among the arguments. -/
def number (read : String → Option Nat) (name value : String) : Except Misuse Nat :=
  match read value with
  | some n => .ok n
  | none => .error (.badValue name value)

/-- A 32-bit number among the arguments. -/
def word (name value : String) : Except Misuse UInt32 :=
  UInt32.ofNat <$> number (Text.unsignedAllowingMinus? UInt32.size) name value

/-- The number that an option gives, if it is given. -/
def Given.number? (given : Given) (flag : Flag) (read : String → Option Nat) :
    Except Misuse (Option Nat) :=
  match given.lookup flag with
  | none => .ok none
  | some value => some <$> number read flag.name value

/-- The options of a command, besides those of either level. -/
def ownFlag? (command : String) : Option Flag :=
  if command = "resolve" then some .context
  else if command = "sweep" then some .maxAgeDays
  else none

/-- The action of a command with its options and arguments. -/
def action (command : String) (given : Given) (arguments : List String) : Except Misuse Action :=
  match command, arguments with
  | "ingest", [application, version, file] =>
    if file.isEmpty then .error (.badValue "file" file) else .ok (.ingest application version file)
  | "resolve", [application, version, file, line, column] => do
    let line ← word "line" line
    let column ← word "column" column
    let context ← given.number? .context (Text.unsigned? UInt64.size)
    return .resolve application version file line column (context.map UInt64.ofNat)
  | "source", [application, version, path] => .ok (.source application version path)
  | "stats", [] => .ok .stats
  | "sweep", [] => do
    let days ← given.number? .maxAgeDays (Text.unsignedAllowingMinus? UInt32.size)
    return .sweep (days.map UInt32.ofNat)
  | "watch", [] => .ok .watch
  | _, _ => .error (.wrongCount command)

/-- The names of the commands. -/
def commands : List String := ["ingest", "resolve", "source", "stats", "sweep", "watch"]

/-- The value of an option that may stand on either level. -/
def either (outer inner : Given) (flag : Flag) : Option String :=
  inner.lookup flag <|> outer.lookup flag

/-- The file of settings: as the options say, or else as the variable says. A level without the option
looks at the variable, which must not be empty then. -/
def configFile (outer inner : Given) (fallback : Option String) : Except Misuse (Option String) :=
  let unset := (outer.lookup .config).isNone || (inner.lookup .config).isNone
  if unset ∧ fallback = some "" then .error (.badValue Flag.config.name "")
  else .ok (either outer inner .config <|> fallback)

/-- The task of a command and what follows it. -/
def task (fallback : Option String) (outer : Given) (command : String) (rest : List Item) :
    Except Misuse Task := do
  if command ∉ commands then throw (.unknownCommand command)
  let allowed (flag : Flag) : Bool := flag.isGlobal || ownFlag? command = some flag
  let (inner, arguments) ← afterCommand allowed [] rest
  let action ← action command inner arguments
  return ⟨← configFile outer inner fallback, either outer inner .dataDir, action⟩

/-- The request of a level before the command. -/
def requestOf (fallback : Option String) (outer : Given) : List Item → Except Misuse Request
  | [] => .error .noCommand
  | .setting flag value :: rest =>
    if flag.isGlobal then do requestOf fallback (← outer.add flag value) rest
    else .error (.unknownOption flag.name)
  | .plain command :: rest => .task <$> task fallback outer command rest
  | .version _ :: _ => .ok .version
  | .close :: _ => .error .noCommand
  | .mistake misuse :: _ => .error misuse

/-- Reads the words of a command line. The fallback is the file of settings that a variable names. -/
def Request.read (fallback : Option String) (words : List String) : Except Misuse Request :=
  requestOf fallback [] (items words)

end OriginMap.Command
