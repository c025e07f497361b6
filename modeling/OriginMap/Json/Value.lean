import OriginMap.Text.Decimal

/-!
# JSON values and how they are written

A value is written over several lines, two spaces deeper for each bracket, with one member or element a
line. Only quotes, backslashes and control characters are escaped in strings.
-/

namespace OriginMap.Json

/-- A JSON value. -/
inductive Value where
  /-- The literal `null`. -/
  | null
  /-- A truth value. -/
  | boolean (b : Bool)
  /-- A number with so many decimal places: its digits with the point left out. -/
  | number (digits : Int) (places : Nat)
  /-- A text. -/
  | text (s : String)
  /-- A list. -/
  | list (items : List Value)
  /-- An object, its members in order. -/
  | object (members : List (String × Value))
  deriving Repr, Inhabited

/-- A natural number. -/
def Value.natural (n : Nat) : Value := .number n 0

/-- A text, or null. -/
def Value.ofText? : Option String → Value
  | some s => .text s
  | none => .null

/-- How a character is written in a string. -/
def escape (c : Char) : List Char :=
  if c = '"' then ['\\', '"']
  else if c = '\\' then ['\\', '\\']
  else if c = '\n' then ['\\', 'n']
  else if c = '\r' then ['\\', 'r']
  else if c = '\t' then ['\\', 't']
  else if c.toNat = 0x08 then ['\\', 'b']
  else if c.toNat = 0x0C then ['\\', 'f']
  else if c.toNat < 0x20 then
    ['\\', 'u', '0', '0', Nat.digitChar (c.toNat / 16), Nat.digitChar (c.toNat % 16)]
  else [c]

/-- A string with its quotes. -/
def quoted (s : String) : List Char := '"' :: s.toList.flatMap escape ++ ['"']

/-- A number. -/
def numberText (digits : Int) (places : Nat) : List Char :=
  let all := Text.padded (places + 1) digits.natAbs
  let sign := if digits < 0 then ['-'] else []
  sign ++ if places = 0 then all
    else all.take (all.length - places) ++ '.' :: all.drop (all.length - places)

/-- The start of a line. -/
def newline (depth : Nat) : List Char := '\n' :: List.replicate (2 * depth) ' '

mutual

/-- A value as it is written inside so many brackets. -/
def Value.pretty (depth : Nat) : Value → List Char
  | .null => ['n', 'u', 'l', 'l']
  | .boolean true => ['t', 'r', 'u', 'e']
  | .boolean false => ['f', 'a', 'l', 's', 'e']
  | .number digits places => numberText digits places
  | .text s => quoted s
  | .list [] => ['[', ']']
  | .list (item :: items) =>
    '[' :: newline (depth + 1) ++ item.pretty (depth + 1) ++ prettyItems (depth + 1) items
      ++ newline depth ++ [']']
  | .object [] => ['\x7b', '\x7d']
  | .object ((key, value) :: members) =>
    '\x7b' :: newline (depth + 1) ++ quoted key ++ ':' :: ' ' :: value.pretty (depth + 1)
      ++ prettyMembers (depth + 1) members ++ newline depth ++ ['\x7d']

/-- The further elements of a list. -/
def prettyItems (depth : Nat) : List Value → List Char
  | [] => []
  | item :: items => ',' :: newline depth ++ item.pretty depth ++ prettyItems depth items

/-- The further members of an object. -/
def prettyMembers (depth : Nat) : List (String × Value) → List Char
  | [] => []
  | (key, value) :: members =>
    ',' :: newline depth ++ quoted key ++ ':' :: ' ' :: value.pretty depth
      ++ prettyMembers depth members

end

/-- A value as a whole text, without a final line feed. -/
def Value.render (v : Value) : String := String.ofList (v.pretty 0)

end OriginMap.Json
