import OriginMap.Config.Source
import OriginMap.Text.Letter

/-!
# Environment files

A file of assignments fills in environment variables that are not set. A line assigns a value to a
name, with an optional `export` in front of the name; a value may be quoted and escaped, and may refer
to variables. Lines are joined while a quote stays open. Reading stops at the first mistake; what stood
before it counts. A value that no variable can hold stops the program.
-/

namespace OriginMap.Config.EnvFile

open Files

/-! ## Lines -/

/-- The lines of a file, each with the line feed that ends it. -/
def physicalLines : Bytes → List Bytes
  | [] => []
  | b :: bytes =>
    if b = 0x0A then [b] :: physicalLines bytes
    else
      match physicalLines bytes with
      | [] => [[b]]
      | line :: lines => (b :: line) :: lines

/-- What the characters of a line so far amount to. -/
inductive Spot where
  /-- Nothing is open. -/
  | plain
  /-- Nothing is open, and a blank was the last character. -/
  | blank
  /-- The next character is escaped. -/
  | escaped
  /-- A quote is open. -/
  | quoted (mark : Char)
  /-- A quote is open, and the next character is escaped. -/
  | quotedEscaped (mark : Char)
  deriving DecidableEq, Repr

/-- Where a character leads that is neither escaped nor quoted. -/
def Spot.opened (c : Char) : Spot :=
  if c = '\\' then .escaped else if c = '"' ∨ c = '\'' then .quoted c else .plain

/-- Where a character leads. Of two blanks in a row, the second counts as text. -/
def Spot.after (spot : Spot) (c : Char) : Spot :=
  match spot with
  | .plain => if Text.isBlank c ∧ c ≠ '\n' ∧ c ≠ '\r' then .blank else .opened c
  | .blank => .opened c
  | .escaped => .plain
  | .quoted mark =>
    if c = '\\' then .quotedEscaped mark else if c = mark then .plain else .quoted mark
  | .quotedEscaped mark => .quoted mark

/-- The characters up to a comment, and where they lead unless there is one. A comment starts at a
number sign after a blank. -/
def uncommented (spot : Spot) : List Char → List Char × Option Spot
  | [] => ([], some spot)
  | c :: text =>
    if spot = .blank ∧ c = '#' then ([], none)
    else
      let (kept, last) := uncommented (spot.after c) text
      (c :: kept, last)

/-- Whether a line is a comment as a whole. -/
def isComment (line : List Char) : Bool := (Text.trimStart line).head? = some '#'

/-- The lines that assignments stand in: lines of the file, joined while something is open, without
their comments. A mistake stands at the end, if there is one: a line that is not UTF-8, or something
that is still open at the end of the file. -/
def logicalLines (joined : List Char) (spot : Spot) : List Bytes → List (Option (List Char))
  | [] => if spot = .plain then [] else [none]
  | line :: lines =>
    match ofUtf8? line with
    | none => [none]
    | some text =>
      if isComment (joined ++ text.toList) then some [] :: logicalLines [] .plain lines
      else
        match uncommented spot text.toList with
        | (kept, none) => some (joined ++ kept) :: logicalLines [] .plain lines
        | (kept, some .plain) => some (joined ++ kept) :: logicalLines [] .plain lines
        | (kept, some last) => logicalLines (joined ++ kept) last lines

/-! ## Values -/

/-- How a character of a value is taken. -/
inductive Mode where
  /-- As text, inside double quotes or outside of quotes. -/
  | body (quoted : Bool)
  /-- As text inside single quotes. -/
  | verbatim
  /-- As an escaped character. -/
  | escaped (quoted : Bool)
  /-- As part of a variable's name. -/
  | name (quoted : Bool) (soFar : List Char)
  /-- As part of a variable's name in braces. -/
  | braced (quoted : Bool) (soFar : List Char)
  /-- As what follows a value. -/
  | ending

/-- What an escaped character stands for. -/
def unescape? (c : Char) : Option Char :=
  if c = 'n' then some '\n'
  else if c = '\\' ∨ c = '\'' ∨ c = '"' ∨ c = '$' ∨ c = ' ' then some c
  else none

/-- Reads a value. What a variable's name without braces ends at is text, even if it is a quote; what
follows a value may only be a comment. -/
def value? (lookup : List Char → List Char) : Mode → List Char → Option (List Char)
  | .body quoted, [] => if quoted then none else some []
  | .escaped quoted, [] => if quoted then none else some []
  | .name quoted soFar, [] => if quoted then none else some (lookup soFar)
  | .verbatim, [] => none
  | .braced _ _, [] => none
  | .ending, [] => some []
  | .body quoted, c :: text =>
    if c = '$' then value? lookup (.name quoted []) text
    else if c = '\\' then value? lookup (.escaped quoted) text
    else if c = '"' then value? lookup (.body (!quoted)) text
    else if c = '\'' ∧ quoted = false then value? lookup .verbatim text
    else if (c = ' ' ∨ c = '\t') ∧ quoted = false then value? lookup .ending text
    else (c :: ·) <$> value? lookup (.body quoted) text
  | .verbatim, c :: text =>
    if c = '\'' then value? lookup (.body false) text else (c :: ·) <$> value? lookup .verbatim text
  | .escaped quoted, c :: text =>
    match unescape? c with
    | none => none
    | some d => (d :: ·) <$> value? lookup (.body quoted) text
  | .name quoted soFar, c :: text =>
    if Text.isLetter c then value? lookup (.name quoted (soFar ++ [c])) text
    else if c = '\x7b' ∧ soFar = [] then value? lookup (.braced quoted []) text
    else if c = '$' then (lookup soFar ++ ·) <$> value? lookup (.name quoted []) text
    else (lookup soFar ++ c :: ·) <$> value? lookup (.body quoted) text
  | .braced quoted soFar, c :: text =>
    if c = '\x7d' then (lookup soFar ++ ·) <$> value? lookup (.body quoted) text
    else value? lookup (.braced quoted (soFar ++ [c])) text
  | .ending, c :: text =>
    if c = ' ' ∨ c = '\t' then value? lookup .ending text else if c = '#' then some [] else none

/-! ## Assignments -/

/-- Whether a name may start with a character. -/
def startsName (c : Char) : Bool := c.isAlpha || c = '_'

/-- Whether a character may stand in a name. -/
def isNamePart (c : Char) : Bool := c.isAlphanum || c = '_' || c = '.'

/-- The name at the start of a text, and the text after it. -/
def name? : List Char → Option (List Char × List Char)
  | [] => none
  | c :: text =>
    if startsName c then some (c :: text.takeWhile isNamePart, text.dropWhile isNamePart) else none

/-- The text after the next equals sign, which only blanks may precede. -/
def afterEquals? (text : List Char) : Option (List Char) :=
  match Text.trimStart text with
  | '=' :: value => some (Text.trimStart value)
  | _ => none

/-- The name that a line assigns to, and the text of its value. -/
def sides? (line : List Char) : Option (List Char × List Char) := do
  let (name, text) ← name? line
  match afterEquals? text with
  | some value => return (name, value)
  | none =>
    if name = ['e', 'x', 'p', 'o', 'r', 't'] then
      let (name, text) ← name? (Text.trimStart text)
      return (name, ← afterEquals? text)
    else none

/-- The value of a variable as text; an unset variable has an empty one. A variable is looked up by the
start of the text that sets it. So a name with an equals sign in it finds a variable, too, if the value
of that continues the name. -/
def valueIn (environment : Environment) (name : List Char) : List Char :=
  if name = [] then []
  else
    let setting := environment.findSome? fun (key, value) =>
      (name ++ ['=']).isPrefixOf? (key.toList ++ '=' :: value.toList)
    setting.getD []

/-- Sets a variable that is not set. -/
def fillIn (environment : Environment) (name value : String) : Environment :=
  if (environment.lookup name).isSome then environment else environment ++ [(name, value)]

/-- Whether the environment can hold a variable with this value. -/
def canHold (value : List Char) : Bool := !value.contains '\x00'

/-- What a line asks for. -/
inductive Statement where
  /-- Nothing. -/
  | nothing
  /-- That a variable has a value. -/
  | assignment (name value : List Char)
  deriving DecidableEq, Repr

/-- Reads a line; none if it is a mistake. -/
def statement? (environment : Environment) (line : List Char) : Option Statement :=
  let text := Text.trimStart (Text.trimEnd line)
  if text = [] ∨ isComment text then some .nothing
  else do
    let (name, text) ← sides? text
    let value ← if isComment text then some [] else value? (valueIn environment) (.body false) text
    return .assignment name value

/-- The variables after lines in a row, up to the first mistake; none if a variable that is not set
would get a value that it cannot hold. -/
def afterLines? (environment : Environment) : List (Option (List Char)) → Option Environment
  | [] => some environment
  | none :: _ => some environment
  | some line :: lines =>
    match statement? environment line with
    | none => some environment
    | some .nothing => afterLines? environment lines
    | some (.assignment name value) =>
      if (environment.lookup (String.ofList name)).isSome || canHold value then
        afterLines? (fillIn environment (String.ofList name) (String.ofList value)) lines
      else none

/-- The bytes after a byte order mark, if there is one. -/
def withoutMark : Bytes → Bytes
  | 0xEF :: 0xBB :: 0xBF :: bytes => bytes
  | bytes => bytes

/-- The variables after a file with these contents; none if it stops the program. -/
def filled? (environment : Environment) (contents : Bytes) : Option Environment :=
  afterLines? environment (logicalLines [] .plain (physicalLines (withoutMark contents)))

/-- The name of the file. -/
def fileName : String := ".env"

/-- Reads the file in the first of some folders that has one. -/
def findIn : List Path → Script (Option Bytes)
  | [] => return none
  | folder :: folders => do
    let path := folder.child fileName
    match ← Script.perform (.read path) with
    | .ok contents => return some contents
    | .error .missing => findIn folders
    | .error .refused => do
      let passes : Bool ← Script.perform (.isFolder path)
      if passes then findIn folders else return none

/-- Reads the file in the working directory, or in the nearest folder above it that has one. -/
def find : Script (Option Bytes) := do
  match ← Script.perform .whereabouts with
  | .error _ => return none
  | .ok here => findIn here.ancestors

/-- The variables, filled in from the file if it can be read; none if it stops the program. -/
def load? (environment : Environment) : Script (Option Environment) := do
  match ← find with
  | none => return some environment
  | some contents => return filled? environment contents

/-! ## Laws -/

/-- The lines of a file are all of it. -/
theorem flatten_physicalLines (contents : Bytes) : (physicalLines contents).flatten = contents := by
  induction contents with
  | nil => rfl
  | cons b bytes ih =>
    rw [physicalLines]
    split
    · simp [ih]
    · split <;> simp_all

/-- A variable that is set keeps its value. -/
theorem lookup_fillIn_of_isSome {environment : Environment} {name : String} (added value : String)
    (h : (environment.lookup name).isSome) :
    (fillIn environment added value).lookup name = environment.lookup name := by
  obtain ⟨kept, hkept⟩ := Option.isSome_iff_exists.1 h
  rw [fillIn]
  split
  · rfl
  · rw [List.lookup_append, hkept]
    rfl

end OriginMap.Config.EnvFile
