/-!
# Mapping entries

One entry ties a position in the generated file to a position in a source. All positions count from
zero, and every field is a 32-bit word.
-/

namespace OriginMap

/-- A decoded position mapping. -/
structure Entry where
  /-- Line in the generated file. -/
  generatedLine : UInt32
  /-- Column in the generated file. -/
  generatedColumn : UInt32
  /-- Which of the artifact's sources. -/
  sourceIndex : UInt32
  /-- Line in that source. -/
  sourceLine : UInt32
  /-- Column in that source. -/
  sourceColumn : UInt32
  /-- Which of the artifact's names, if the entry has one. -/
  nameIndex : Option UInt32
  deriving DecidableEq, Repr, Inhabited

/-- The absolute difference of two words. -/
def gap (a b : UInt32) : Nat := if a ≤ b then b.toNat - a.toNat else a.toNat - b.toNat

/-- How far an entry stands from a generated position: line difference plus column difference. -/
def Entry.distance (entry : Entry) (line column : UInt32) : Nat :=
  gap entry.generatedLine line + gap entry.generatedColumn column

end OriginMap
