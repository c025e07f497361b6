import OriginMap.Text.Lines

/-!
# Surrounding lines

A line of a source with some lines before and after it, as error viewers show it. Line numbers and
counts are 64-bit words; the window's ends stop at the ends of that range and of the text.
-/

namespace OriginMap

/-- A line and its surroundings. -/
structure Context where
  /-- Lines before, in order. -/
  pre : List String
  /-- The line itself. -/
  line : String
  /-- Lines after, in order. -/
  post : List String
  deriving DecidableEq, Repr

namespace Context

/-- The sum of two words, or the largest word where they exceed it. -/
def sumWithin (a b : UInt64) : UInt64 := if b ≤ 0xFFFFFFFFFFFFFFFF - a then a + b else 0xFFFFFFFFFFFFFFFF

/-- The difference of two words, or zero where the second is larger. -/
def differenceWithin (a b : UInt64) : UInt64 := if b ≤ a then a - b else 0

/-- The elements from one position up to another. -/
def slice (xs : List α) (start stop : Nat) : List α := (xs.take stop).drop start

/-- The given line of a text with up to `count` lines on each side; none past the end of the text. -/
def extract? (text : String) (line count : UInt64) : Option Context :=
  let lines := (Text.lines text.toList).map String.ofList
  match lines[line.toNat]? with
  | none => none
  | some here =>
    let start := (differenceWithin line count).toNat
    let stop := min (sumWithin (sumWithin line 1) count).toNat lines.length
    some { pre := slice lines start line.toNat, line := here, post := slice lines (line.toNat + 1) stop }

end Context

end OriginMap
