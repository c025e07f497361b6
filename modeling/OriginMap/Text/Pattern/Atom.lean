import OriginMap.Text.Pattern.Flags

/-!
# Atoms of patterns

What a single character of a pattern stands for, or an escape. What needs tables of Unicode is not
supported: properties, the classes of digits, blanks and letters among all characters, and to disregard
case among all characters.
-/

namespace OriginMap.Text.Pattern

/-- What a character or an escape stands for. -/
inductive Atom where
  /-- One character, by its number, which may be written as a byte. -/
  | character (code : Nat) (asByte : Bool)
  /-- Digits, blanks or letters, or everything else. -/
  | characters (negated : Bool)
  /-- A place between characters; a boundary of words is one that depends on letters. -/
  | place (ofWords : Bool)
  deriving DecidableEq, Repr

/-- Whether an atom may stand on its own. No character of more than one byte may be matched in part. -/
def Atom.stands (flags : Flags) : Atom → Bool
  | character code asByte => if flags.unicode then !flags.caseless else !asByte || code < 128
  | characters negated => !flags.unicode && !negated
  | place ofWords => !(ofWords && flags.unicode)

/-- Whether an atom may stand in a class. -/
def Atom.isMember (flags : Flags) : Atom → Bool
  | character code _ => if flags.unicode then !flags.caseless else code < 128
  | characters negated => !flags.unicode && !negated
  | place _ => false

/-! ## Escapes -/

/-- The value of a hexadecimal digit. -/
def hexValue? (c : Char) : Option Nat :=
  if '0' ≤ c ∧ c ≤ '9' then some (c.toNat - 48)
  else if 'a' ≤ c ∧ c ≤ 'f' then some (c.toNat - 87)
  else if 'A' ≤ c ∧ c ≤ 'F' then some (c.toNat - 55)
  else none

/-- Reads so many hexadecimal digits after those that have a value. -/
def hex? (flags : Flags) (value : Nat) : Nat → List Char → Option (Nat × List Char)
  | 0, text => some (value, text)
  | count + 1, text =>
    match flags.skip text with
    | [] => none
    | c :: text => do hex? flags (16 * value + (← hexValue? c)) count text

/-- Reads a character that is given by its number, which has so many digits. -/
def coded? (flags : Flags) (count : Nat) (text : List Char) : Option (Atom × List Char) := do
  let (code, rest) ← hex? flags 0 count text
  if code.isValidChar then some (.character code (count = 2), rest) else none

/-- The characters that letters stand for after a backslash. -/
def controlLetters : List (Char × Nat) :=
  [('a', 0x07), ('f', 0x0C), ('t', 0x09), ('n', 0x0A), ('r', 0x0D), ('v', 0x0B)]

/-- Reads what follows a backslash. -/
def escape? (flags : Flags) : List Char → Option (Atom × List Char)
  | [] => none
  | c :: text =>
    if c = 'x' then coded? flags 2 text
    else if c = 'u' then coded? flags 4 text
    else if c = 'U' then coded? flags 8 text
    else if c ∈ ['d', 's', 'w'] then some (.characters false, text)
    else if c ∈ ['D', 'S', 'W'] then some (.characters true, text)
    else if c ∈ ['A', 'z'] then some (.place false, text)
    else if c ∈ ['b', 'B', '<', '>'] then some (.place true, text)
    else
      match controlLetters.lookup c with
      | some code => some (.character code false, text)
      | none =>
        if c.toNat < 128 ∧ !c.isAlphanum then some (.character c.toNat false, text) else none

/-- Reads an atom. -/
def atom? (flags : Flags) : List Char → Option (Atom × List Char)
  | [] => none
  | '\\' :: text => escape? flags text
  | c :: text => some (.character c.toNat false, text)

end OriginMap.Text.Pattern
