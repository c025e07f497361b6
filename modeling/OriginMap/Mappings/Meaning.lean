import OriginMap.Mappings

/-!
# What a mapping text means

The entries of a mapping text, told without running values: each is made of totals of the numbers in the
pieces before it. The numbers of a piece have five places, in this order: generated column, source
index, source line, source column and name index. A piece counts in the totals if it has one, four or
five numbers and no total overflows by it.
-/

namespace OriginMap.Mappings

/-- A piece of a mapping text. -/
structure Piece where
  /-- The number of its line. -/
  line : Nat
  /-- The numbers that it is read as. -/
  values : List Int
  deriving DecidableEq, Repr

/-- The pieces of a numbered line that are not empty. -/
def linePieces (line : List Char × Nat) : List Piece :=
  (pieces line.1).map fun piece => ⟨line.2, Delta.decode piece⟩

/-- The pieces of a text that are not empty, in the order of the text. -/
def placed (text : List Char) : List Piece := (text.splitOn ';').zipIdx.flatMap linePieces

/-- Whether the number of a piece at some place is added up to a line. Generated columns are added up in
each line on its own, and in one mode the numbers of all other places too. -/
def Piece.reaches (mode : Accumulation) (line place : Nat) (p : Piece) : Bool :=
  p.line = line || (mode = .crossLine && place ≠ 0)

/-- The sum of the numbers that some pieces have at a place, added up to a line. -/
def total (mode : Accumulation) (counted : List Piece) (line place : Nat) : Int :=
  ((counted.filter (·.reaches mode line place)).filterMap (·.values[place]?)).foldr (· + ·) 0

/-- A piece is accepted after those that count so far: it has one, four or five numbers, and with it the
total of each place where it has one fits a signed word of sixty-four bits. -/
def Accepted (mode : Accumulation) (counted : List Piece) (p : Piece) : Prop :=
  (p.values.length = 1 ∨ p.values.length = 4 ∨ p.values.length = 5) ∧
    ∀ place < p.values.length, fitsSigned (total mode (counted ++ [p]) p.line place) = true

instance (mode : Accumulation) (counted : List Piece) (p : Piece) :
    Decidable (Accepted mode counted p) :=
  inferInstanceAs (Decidable (_ ∧ _))

/-- The pieces that count after one more. -/
def extend (mode : Accumulation) (counted : List Piece) (p : Piece) : List Piece :=
  if Accepted mode counted p then counted ++ [p] else counted

/-- Those of some pieces that count. -/
def accepted (mode : Accumulation) (pieces : List Piece) : List Piece := pieces.foldl (extend mode) []

/-- The entry of a piece after those that count so far: its line and the totals with it, if it has four
numbers or five and all of these fit words. -/
def Piece.mapped? (mode : Accumulation) (counted : List Piece) (p : Piece) : Option Entry :=
  let sum := total mode (counted ++ [p]) p.line
  if Accepted mode counted p ∧ 4 ≤ p.values.length then do
    let nameIndex ← (if p.values.length = 5 then (word? (sum 4)).map some else some none)
    return {
      generatedLine := ← word? p.line
      generatedColumn := ← word? (sum 0)
      sourceIndex := ← word? (sum 1)
      sourceLine := ← word? (sum 2)
      sourceColumn := ← word? (sum 3)
      nameIndex }
  else none

/-- What becomes of a piece after those that count so far: its entry, or a move of the generated column if it
is accepted with one number; every other piece is skipped. -/
def Piece.outcome (mode : Accumulation) (counted : List Piece) (p : Piece) : Outcome :=
  match p.mapped? mode counted with
  | some e => .entry e
  | none => if Accepted mode counted p ∧ p.values.length = 1 then .unmapped else .skipped

end OriginMap.Mappings
