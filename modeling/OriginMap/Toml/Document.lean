import OriginMap.Toml.Scalar

/-!
# TOML documents

A document is a list of statements, one a line at most: a header, or a key and a value. The members are
entered into one table as they come. Arrays and inline tables nest seventy-nine deep at most, and a key
has at most seventy-nine parts.
-/

namespace OriginMap.Toml

/-! ## Keys -/

/-- Whether a character may stand in a key without quotes. -/
def isBare (c : Char) : Bool := isLetter c || Text.isDigit c || c = '_' || c = '-'

/-- Reads one part of a key. -/
def keyPart (text : List Char) : Option (String × List Char) :=
  match text with
  | '"' :: _ => simpleString text
  | '\'' :: _ => simpleString text
  | _ =>
    let name := text.takeWhile isBare
    if name.isEmpty then none else some (String.ofList name, text.dropWhile isBare)

/-- Reads the parts of a key with dots between them, `budget` parts at most. -/
def keyParts : Nat → Reader (List String)
  | 0, _ => none
  | budget + 1, text => do
    let (part, rest) ← keyPart (skipSpace text)
    match skipSpace rest with
    | '.' :: rest =>
      let (parts, rest) ← keyParts budget rest
      return (part :: parts, rest)
    | rest => return ([part], rest)

/-- The most parts that a key may have. -/
def longestKey : Nat := 79

/-- Reads a key: its parts but the last, and its last part. -/
def key (text : List Char) : Option ((List String × String) × List Char) := do
  let (parts, rest) ← keyParts longestKey text
  return ((parts.dropLast, ← parts.getLast?), rest)

/-! ## Values -/

/-- The characters after a comment, if there is one; a comment goes to the end of the line. -/
def skipComment? : List Char → Option (List Char)
  | '#' :: rest =>
    let after := rest.dropWhile isPrintable
    if after.isEmpty || (lineEnd? after).isSome then some after else none
  | rest => some rest

/-- The characters after spaces, comments and line ends. -/
def skipLines? : Nat → List Char → Option (List Char)
  | 0, text => some text
  | budget + 1, text => do
    let rest ← skipComment? (skipSpace text)
    match lineEnd? rest with
    | some rest => skipLines? budget rest
    | none => return rest

/-- Reads the elements of an array from after its bracket, or from after a comma. -/
def arrayItems (item : Reader Value) : Nat → List Value → Reader (List Value)
  | 0, _, _ => none
  | budget + 1, seen, text => do
    match ← skipLines? text.length text with
    | ']' :: rest => return (seen.reverse, rest)
    | text =>
      let (value, rest) ← item text
      match ← skipLines? rest.length rest with
      | ',' :: rest => arrayItems item budget (value :: seen) rest
      | ']' :: rest => return ((value :: seen).reverse, rest)
      | _ => none

/-- Reads a key, an equals sign and a value. -/
def keyValue (item : Reader Value) (text : List Char) :
    Option ((List String × String × Value) × List Char) := do
  let ((path, name), rest) ← key text
  let '=' :: rest := rest | none
  let (value, rest) ← item (skipSpace rest)
  return ((path, name, value), skipSpace rest)

/-- Reads the members of an inline table from after its brace, or from after a comma. -/
def inlineMembers (item : Reader Value) : Nat → Members → Reader Members
  | 0, _, _ => none
  | budget + 1, members, text => do
    let ((path, name, value), rest) ← keyValue item text
    let members ← members.add path name value
    match rest with
    | ',' :: rest => inlineMembers item budget members rest
    | '\x7d' :: rest => return (members, rest)
    | _ => none

/-- Reads a value in which arrays and inline tables nest so deep at most. -/
def value : Nat → Reader Value
  | 0, text => scalar text
  | depth + 1, text =>
    match text with
    | '[' :: rest =>
      (arrayItems (value depth) (rest.length + 1) [] rest).map fun (items, after) => (.array items, after)
    | '\x7b' :: rest =>
      match skipSpace rest with
      | '\x7d' :: after => some (.table .inline [], after)
      | rest =>
        (inlineMembers (value depth) (rest.length + 1) [] rest).map fun (members, after) =>
          (.table .inline members, after)
    | _ => scalar text

/-- How deep arrays and inline tables may nest. -/
def deepest : Nat := 79

/-! ## Statements -/

/-- A document being read. -/
structure Progress where
  /-- The members so far. -/
  members : Members
  /-- The table that was opened last. -/
  opened : List String

/-- The characters from the next line on, after what may still stand on this one. -/
def finishLine? (text : List Char) : Option (List Char) := do
  let rest ← skipComment? (skipSpace text)
  if rest.isEmpty then some rest else lineEnd? rest

/-- Reads one statement and the rest of its line. -/
def statement (progress : Progress) : Reader Progress
  | '[' :: '[' :: text => do
    let ((path, name), rest) ← key text
    let ']' :: ']' :: rest := rest | none
    let members ← progress.members.openElement path name
    return (⟨members, path ++ [name]⟩, ← finishLine? rest)
  | '[' :: text => do
    let ((path, name), rest) ← key text
    let ']' :: rest := rest | none
    let members ← progress.members.openTable path name
    return (⟨members, path ++ [name]⟩, ← finishLine? rest)
  | text => do
    let ((path, name, item), rest) ← keyValue (value deepest) text
    let members ← progress.members.addWithin progress.opened path name item
    return ({ progress with members }, ← finishLine? rest)

/-- Reads statements, `budget` at most, to the end of the text. -/
def statements : Nat → Progress → List Char → Option Members
  | 0, _, _ => none
  | budget + 1, progress, text => do
    match ← skipLines? text.length text with
    | [] => return progress.members
    | text =>
      let (progress, rest) ← statement progress text
      statements budget progress rest

/-- The members of a document. A byte order mark at its start does not count. -/
def parse (text : String) : Option Members :=
  let characters := match text.toList with
    | '\uFEFF' :: rest => rest
    | characters => characters
  statements (characters.length + 1) ⟨[], []⟩ characters

end OriginMap.Toml
