import OriginMap.Text.Pattern.Atom

/-!
# Classes of characters

The part of a pattern between brackets: single characters, ranges, named classes and classes in it, with
operators between sets of them. A class of bytes may not be turned round, as it would match part of a
character then.
-/

namespace OriginMap.Text.Pattern

/-- The names of classes of ASCII characters. -/
def asciiClasses : List String :=
  ["alnum", "alpha", "ascii", "blank", "cntrl", "digit", "graph", "lower", "print", "punct", "space",
    "upper", "word", "xdigit"]

/-- Reads the name of a class of ASCII characters between colons, and the bracket after it. A circumflex
before the name turns the class round, which is said, too. -/
def asciiClass? : List Char → Option (Bool × List Char)
  | ':' :: text =>
    let negated := text.head? = some '^'
    let name := if negated then text.drop 1 else text
    match name.dropWhile (· ≠ ':') with
    | ':' :: ']' :: rest =>
      if String.ofList (name.takeWhile (· ≠ ':')) ∈ asciiClasses then some (negated, rest) else none
    | _ => none
  | _ => none

/-- Whether a class of ASCII characters may stand in a class. -/
def takesAsciiClass (flags : Flags) (negated : Bool) : Bool :=
  if flags.unicode then !flags.caseless else !negated

/-- What was read of a class. -/
structure Members where
  /-- How deep the set before the last operator nests, if there is an operator. -/
  left : Option Nat := none
  /-- How deep the items since then nest, the last one first. -/
  items : List Nat := []
  deriving DecidableEq, Repr

namespace Members

/-- How deep the set that was read nests. An operator stands one level above its sides. -/
def depth (members : Members) : Nat :=
  match members.left with
  | none => nested members.items
  | some left => max left (nested members.items) + 1

/-- One more item. -/
def add (members : Members) (depth : Nat) : Members :=
  { members with items := depth :: members.items }

end Members

/-- Reads the sign that turns a class round, if there is one and it may stand there. -/
def afterNegation? (flags : Flags) (text : List Char) : Option (List Char) :=
  match flags.skip text with
  | '^' :: rest => if flags.unicode then some rest else none
  | rest => some rest

/-- Reads a single item or a range. A hyphen makes no range before another hyphen or at the end. -/
def member? (flags : Flags) (text : List Char) : Option (List Char) := do
  let (low, rest) ← atom? flags text
  guard (low.isMember flags)
  match flags.skip rest with
  | '-' :: more =>
    if flags.peek more = some ']' ∨ flags.peek more = some '-' then return '-' :: more
    match low, ← atom? flags (flags.skip more) with
    | .character first _, (.character last asByte, rest) =>
      guard ((Atom.character last asByte).isMember flags ∧ first ≤ last)
      return rest
    | _, _ => none
  | rest => return rest

/-- Reads a class to the bracket that ends it, and says how deep it nests. The classes around it are
given with what was read of each. At the start of a class, hyphens stand for themselves, and so does a
bracket that nothing comes before. The number of steps is bounded. -/
def class? (flags : Flags) (around : List Members) (members : Members) (atStart : Bool) :
    Nat → List Char → Option (Nat × List Char)
  | 0, _ => none
  | steps + 1, text =>
    match flags.skip text with
    | [] => none
    | c :: text =>
      if atStart ∧ (c = '-' ∨ c = ']' ∧ members.items = []) then
        if (Atom.character c.toNat false).isMember flags then
          class? flags around (members.add 0) (c = '-') steps text
        else none
      else if c = ']' then
        match around with
        | [] => some (members.depth + 1, text)
        | outer :: around => class? flags around (outer.add (members.depth + 1)) false steps text
      else if c = '[' then
        match asciiClass? text with
        | some (negated, rest) =>
          if takesAsciiClass flags negated then class? flags around (members.add 0) false steps rest
          else none
        | none => do class? flags (members :: around) {} true steps (← afterNegation? flags text)
      else if c ∈ ['&', '-', '~'] ∧ text.head? = some c then
        class? flags around { left := some members.depth } false steps (text.drop 1)
      else do class? flags around (members.add 0) false steps (← member? flags (c :: text))

/-- Reads a class after the bracket that starts it. -/
def readClass? (flags : Flags) (text : List Char) : Option (Nat × List Char) := do
  class? flags [] {} true text.length (← afterNegation? flags text)

end OriginMap.Text.Pattern
