import OriginMap.Text.Numeral
import OriginMap.Text.Pattern.CharacterClass

/-!
# Patterns

Which texts are regular expressions that can be matched in one pass over the bytes of a text: groups,
classes, escapes and repetitions are well-formed and do not nest too deep, nothing needs tables of
Unicode, and nothing matches part of a character. Counted repetitions and names in braces are not among
them, as patterns stand in places that a closing brace ends.
-/

namespace OriginMap.Text.Pattern

/-! ## Groups -/

/-- Whether a name may stand for a group. -/
def isGroupName : List Char → Bool
  | [] => false
  | c :: name =>
    (c = '_' || isAlphabetic c) && name.all fun d => isLetter d || d ∈ ['_', '.', '[', ']']

/-- The name of a group, and the text after the bracket that ends it. -/
def groupName? (text : List Char) : Option (List Char × List Char) :=
  let name := text.takeWhile (· ≠ '>')
  match text.dropWhile (· ≠ '>') with
  | [] => none
  | _ :: rest => if isGroupName name then some (name, rest) else none

/-- What an opening parenthesis and the text after it start. -/
inductive Opening where
  /-- Nothing: flags change for the rest of the group around. -/
  | change (flags : Flags)
  /-- A group with these flags, which may have a name. -/
  | group (flags : Flags) (name : Option (List Char))

/-- Reads what an opening parenthesis starts. -/
def opening? (flags : Flags) : List Char → Option (Opening × List Char)
  | '?' :: 'P' :: '<' :: text => named text
  | '?' :: '<' :: text => named text
  | '?' :: text =>
    match flags? flags [] text with
    | none => none
    | some (inner, signs, ending, rest) =>
      if ending = ':' then some (.group inner none, rest)
      else if signs = [] then none
      else some (.change inner, rest)
  | text => some (.group flags none, text)
where
  /-- Reads the name of a group. -/
  named (text : List Char) : Option (Opening × List Char) :=
    (groupName? text).map fun (name, rest) => (.group flags (some name), rest)

/-! ## Levels -/

/-- What was read of a group, or of the pattern outside of groups. -/
structure Level where
  /-- The flags that hold now. -/
  flags : Flags := {}
  /-- How deep the alternatives before nest, the last one first. -/
  alternatives : List Nat := []
  /-- How deep the parts of this alternative nest, the last one first. -/
  parts : List Nat := []
  /-- Whether there is a last part and it can be repeated. -/
  repeatable : Bool := false
  deriving DecidableEq, Repr

namespace Level

/-- How deep all that was read nests. -/
def depth (level : Level) : Nat := nested (nested level.parts :: level.alternatives)

/-- One more part. -/
def add (level : Level) (depth : Nat) : Level :=
  { level with parts := depth :: level.parts, repeatable := true }

/-- A change of flags, which is a part, too. -/
def change (level : Level) (flags : Flags) : Level :=
  { level with flags, parts := 0 :: level.parts, repeatable := false }

/-- The start of one more alternative. -/
def branch (level : Level) : Level :=
  { level with
    alternatives := nested level.parts :: level.alternatives
    parts := []
    repeatable := false }

/-- Repeats the last part, which then stands one level deeper. -/
def repeated? (level : Level) : Option Level :=
  match level.repeatable, level.parts with
  | true, depth :: parts => some { level with parts := (depth + 1) :: parts }
  | _, _ => none

end Level

/-- Reads a part that is no group and no repetition, and says how deep it nests. -/
def part? (flags : Flags) : List Char → Option (Nat × List Char)
  | '[' :: text => readClass? flags text
  | '{' :: _ => none
  | '.' :: text => if flags.unicode then some (0, text) else none
  | '^' :: text | '$' :: text => some (0, text)
  | text => do
    let (atom, rest) ← atom? flags text
    if atom.stands flags then some (0, rest) else none

/-! ## Patterns -/

/-- Reads the rest of a pattern and says how deep its parts nest. The names of groups are given, and the
levels around. The number of steps is bounded. -/
def depthAfter? (names : List (List Char)) (around : List Level) (level : Level) :
    Nat → List Char → Option Nat
  | steps, text =>
    match steps, level.flags.skip text with
    | _, [] => if around.isEmpty then some level.depth else none
    | 0, _ => none
    | steps + 1, c :: text =>
      if c = '(' then
        match opening? level.flags (level.flags.skip text) with
        | none => none
        | some (.change flags, rest) => depthAfter? names around (level.change flags) steps rest
        | some (.group flags none, rest) => depthAfter? names (level :: around) { flags } steps rest
        | some (.group flags (some name), rest) =>
          if name ∈ names then none
          else depthAfter? (name :: names) (level :: around) { flags } steps rest
      else if c = ')' then
        match around with
        | [] => none
        | outer :: around => depthAfter? names around (outer.add (level.depth + 1)) steps text
      else if c = '|' then depthAfter? names around level.branch steps text
      else if c = '*' ∨ c = '+' ∨ c = '?' then
        match level.repeated? with
        | none => none
        | some level =>
          depthAfter? names around level steps (if text.head? = some '?' then text.drop 1 else text)
      else
        match part? level.flags (c :: text) with
        | none => none
        | some (depth, rest) => depthAfter? names around (level.add depth) steps rest

/-- How deep the parts of a pattern nest, if a text is one. -/
def depth? (text : List Char) : Option Nat := depthAfter? [] [] {} text.length text

/-- Whether a text is a pattern whose parts do not nest too deep. -/
def isPattern (text : List Char) : Bool := (depth? text).any (· ≤ maxDepth)

end OriginMap.Text.Pattern
