import OriginMap.Text.Blank

/-!
# Flags of patterns

How the text of a pattern is read: whether blanks count, whether characters are those of Unicode, and
whether case counts. Flags hold to the end of the group that they stand in.
-/

namespace OriginMap.Text.Pattern

/-- What holds at a place of a pattern. -/
structure Flags where
  /-- Whether blanks do not count, and a number sign starts a comment. -/
  verbose : Bool := false
  /-- Whether characters are those of Unicode, and not bytes. -/
  unicode : Bool := true
  /-- Whether case does not count. -/
  caseless : Bool := false
  deriving DecidableEq, Repr

/-- The letters of flags, and the sign that takes those after it away. -/
def flagSigns : List Char := ['-', 'i', 'm', 's', 'U', 'u', 'R', 'x']

/-- Sets a flag, or takes it away. -/
def Flags.change (flags : Flags) (letter : Char) (on : Bool) : Flags :=
  if letter = 'x' then { flags with verbose := on }
  else if letter = 'u' then { flags with unicode := on }
  else if letter = 'i' then { flags with caseless := on }
  else flags

/-- Reads flags up to the colon or the closing parenthesis that ends them, which is given back with the
text after it. The signs so far are given, the last one first; none may come twice. -/
def flags? (flags : Flags) (signs : List Char) :
    List Char → Option (Flags × List Char × Char × List Char)
  | [] => none
  | c :: text =>
    if c = ':' ∨ c = ')' then
      if signs.head? = some '-' then none else some (flags, signs, c, text)
    else if c ∈ signs ∨ c ∉ flagSigns then none
    else flags? (flags.change c (!signs.contains '-')) (c :: signs) text

/-- A text without the blanks and comments at its start. A comment goes to the end of its line. -/
def withoutComments (inComment : Bool) : List Char → List Char
  | [] => []
  | c :: text =>
    if inComment then withoutComments (c ≠ '\n') text
    else if isBlank c then withoutComments false text
    else if c = '#' then withoutComments true text
    else c :: text

/-- A text without what does not count at its start. -/
def Flags.skip (flags : Flags) (text : List Char) : List Char :=
  if flags.verbose then withoutComments false text else text

/-- The next character that counts. Of a comment, its first character that is not blank is taken for
it; if there is no such character at all, the very next one is. -/
def Flags.peek (flags : Flags) (text : List Char) : Option Char :=
  if flags.verbose then
    match text.dropWhile isBlank with
    | [] => text.head?
    | '#' :: comment => ((comment.dropWhile isBlank).head?).or text.head?
    | c :: _ => some c
  else text.head?

/-! ## Depths -/

/-- How deep the parts of a pattern may nest. -/
def maxDepth : Nat := 250

/-- How deep parts in a row nest together, by how deep each does: a single part is the row itself, and
several parts stand one level below it. -/
def nested : List Nat → Nat
  | [] => 0
  | [depth] => depth
  | depths => depths.foldl max 0 + 1

/-! ## Laws -/

/-- Nothing at the start of what is left has still to be skipped. -/
theorem withoutComments_idem (inComment : Bool) (text : List Char) :
    withoutComments false (withoutComments inComment text) = withoutComments inComment text := by
  fun_induction withoutComments inComment text with
  | case1 => rfl
  | case2 => assumption
  | case3 => assumption
  | case4 => assumption
  | case5 inComment c text hcomment hblank hsign => simp [withoutComments, hblank, hsign]

end OriginMap.Text.Pattern
