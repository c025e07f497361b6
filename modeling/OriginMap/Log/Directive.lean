import OriginMap.Text.Decimal
import OriginMap.Text.Pattern
import OriginMap.Text.Slice

/-!
# Log directives

A filter of what is logged is a list of directives between commas. A directive names a level, or a
target with a span, a field of it and a level, in the form `target[span{field=value}]=level`. Its parts
are cut out by byte positions that do not count the blanks in front of it, though the text that is cut
has them: with blanks in front, a cut may fall inside a character.
-/

namespace OriginMap.Log

/-- Why a directive is not taken. -/
inductive Fault where
  /-- It has not the form of a directive. -/
  | malformed
  /-- It is cut inside a character. -/
  | insideCharacter
  deriving DecidableEq, Repr

/-! ## Parts -/

/-- The names of levels. -/
def levelNames : List String := ["off", "error", "warn", "info", "debug", "trace"]

/-- Whether a text is a level: a name in letters of any case, or the place of a level among them. -/
def isLevel (text : List Char) : Bool :=
  String.ofList (text.map Char.toLower) ∈ levelNames ||
    (Text.unsigned? levelNames.length (String.ofList text)).isSome

/-- The text without a sign at its start. -/
def withoutSign : List Char → List Char
  | '+' :: text | '-' :: text => text
  | text => text

/-- Whether a text is a number in decimal notation, with a point and a power of ten if need be. -/
def isUnsignedNumber (text : List Char) : Bool :=
  let whole := text.takeWhile Text.isDigit
  let afterWhole := text.dropWhile Text.isDigit
  let (part, rest) := match afterWhole with
    | '.' :: digits => (digits.takeWhile Text.isDigit, digits.dropWhile Text.isDigit)
    | other => ([], other)
  !(whole ++ part).isEmpty &&
    match rest with
    | [] => true
    | e :: power => (e = 'e' || e = 'E') && (Text.digits? (withoutSign power)).isSome

/-- Whether a text is a number, infinite ones and those that are none included. -/
def isNumber (text : List Char) : Bool :=
  let unsigned := withoutSign text
  String.ofList (unsigned.map Char.toLower) ∈ ["inf", "infinity", "nan"] || isUnsignedNumber unsigned

/-- Whether a text names a field. What follows its first equals sign is a number or a pattern. -/
def isField (text : List Char) : Bool :=
  !text.isEmpty &&
    match text.splitOn '=' with
    | _ :: value :: _ => isNumber value || Text.Pattern.isPattern value
    | _ => true

/-- Whether a directive may start with a character, if no span starts it. -/
def startsHead (c : Char) : Bool := Text.isLetter c || c = '-' || c = ':' || c = '_'

/-! ## Directives -/

/-- The part of a directive that is being read, with the position at which it starts. -/
inductive Part where
  /-- Nothing was read. -/
  | beginning
  /-- A level or a target, from the beginning. -/
  | head
  /-- The name of a span. -/
  | span (start : Nat)
  /-- A field. -/
  | field (start : Nat)
  /-- What follows a field. -/
  | afterField
  /-- What follows a span. -/
  | afterSpan
  /-- A level. -/
  | level (start : Nat)
  deriving DecidableEq, Repr

/-- Cuts a part out of a directive. -/
def cut (text : List Char) (start stop : Nat) : Except Fault (List Char) :=
  (Text.slice? text start stop).elim (.error .insideCharacter) .ok

/-- The part of a directive that a character at a position belongs to or leads to. -/
def Part.after (text : List Char) (position : Nat) (c : Char) : Part → Except Fault Part
  | beginning =>
    if c = '[' then .ok (span (position + 1))
    else if startsHead c then .ok head
    else .error .malformed
  | head =>
    if c = '=' then (cut text 0 position).map fun _ => level (position + 1)
    else if c = '[' then (cut text 0 position).map fun _ => span (position + 1)
    else .ok head
  | span start =>
    if c = ']' then (cut text start position).map fun _ => afterSpan
    else if c = '\x7b' then (cut text start position).map fun _ => field (position + 1)
    else .ok (span start)
  | field start =>
    if c = '\x7d' then
      cut text start position >>= fun name =>
        if isField name then .ok afterField else .error .malformed
    else .ok (field start)
  | afterField => if c = ']' then .ok afterSpan else .error .malformed
  | afterSpan => if c = '=' then .ok (level (position + 1)) else .error .malformed
  | level start => .ok (level start)

/-- Judges a directive that ends in a part. -/
def Part.finish (text : List Char) : Part → Except Fault Unit
  | head | afterSpan => .ok ()
  | level start =>
    cut text start (Text.byteLength text) >>= fun name =>
      if name.isEmpty || isLevel name then .ok () else .error .malformed
  | _ => .error .malformed

/-- Judges the rest of a directive. -/
def checkRest (text : List Char) (part : Part) (position : Nat) : List Char → Except Fault Unit
  | [] => part.finish text
  | c :: rest =>
    match part.after text position c with
    | .error fault => .error fault
    | .ok part => checkRest text part (position + c.utf8Size) rest

/-- Judges a directive. -/
def checkDirective (text : List Char) : Except Fault Unit :=
  checkRest text .beginning 0 (Text.trimEnd (Text.trimStart text))

/-! ## Filters -/

/-- The directives of a filter. -/
def directives (filter : String) : List (List Char) := (filter.toList.splitOn ',').filter (· ≠ [])

/-- The fault of the first directive that has one, if any has. -/
def fault? (filter : String) : Option Fault :=
  (directives filter).findSome? fun directive =>
    match checkDirective directive with
    | .ok () => none
    | .error fault => some fault

/-- Whether no directive of a filter is cut inside a character. -/
def isWhole (filter : String) : Bool :=
  (directives filter).all fun directive =>
    match checkDirective directive with
    | .error .insideCharacter => false
    | _ => true

/-- The variable whose filter comes before that of the settings. -/
def variableName : String := "RUST_LOG"

/-- Whether logging can start with the value of the variable and with the filter of the settings, which
counts if the variable is not set or one of its directives is malformed. Malformed directives of the
settings are passed over; a directive that is cut inside a character stops the program. -/
def canStart (value : Option String) (filter : String) : Bool :=
  match value.bind fault?, value with
  | some .insideCharacter, _ => false
  | some .malformed, _ | none, none => isWhole filter
  | none, some _ => true

end OriginMap.Log
