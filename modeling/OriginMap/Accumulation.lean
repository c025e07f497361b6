/-!
# Accumulation modes

Source positions in a mapping text are differences. The mode says how far they add up: over the whole
text, or over one generated line only.
-/

namespace OriginMap

/-- How far source-side differences accumulate. -/
inductive Accumulation where
  /-- Over the whole text. -/
  | crossLine
  /-- Over one generated line; each line starts from zero. -/
  | perLine
  deriving DecidableEq, Repr, Inhabited

namespace Accumulation

/-- The mode's name in settings and answers. -/
def name : Accumulation → String
  | crossLine => "cross_line"
  | perLine => "per_line"

/-- The mode of exactly this name. -/
def ofName? (text : String) : Option Accumulation :=
  if text = crossLine.name then some crossLine
  else if text = perLine.name then some perLine
  else none

/-- A text that names no mode, as it was compared. -/
structure Unknown where
  /-- The text in lower case with hyphens as underscores. -/
  spelling : String
  deriving DecidableEq, Repr

/-- The wording of the error. -/
def Unknown.message (e : Unknown) : String := "unknown accumulation mode '" ++ e.spelling ++ "'"

/-- Reads a mode leniently: ASCII case and the choice of hyphen or underscore do not matter. -/
def read (text : String) : Except Unknown Accumulation :=
  let spelling := String.ofList (text.toList.map fun c => if c = '-' then '_' else c.toLower)
  match ofName? spelling with
  | some mode => .ok mode
  | none => .error ⟨spelling⟩

end Accumulation

end OriginMap
