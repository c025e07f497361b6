import OriginMap.Accumulation
import OriginMap.Delta
import OriginMap.Entry
import OriginMap.Word

/-!
# Mapping texts

A mapping text holds one line for each generated line, separated by semicolons; a line holds pieces,
separated by commas; a piece is a delta segment of one, four or five numbers. Each number is a
difference to a running value. Reading never fails: every piece that is not empty has one outcome,
and a bad piece is passed over.
-/

namespace OriginMap.Mappings

/-- The sum of two numbers, if it fits a signed word of sixty-four bits. -/
def sum? (a b : Int) : Option Int := if fitsSigned (a + b) then some (a + b) else none

/-- The running values on the source side. -/
structure Running where
  /-- Source index. -/
  source : Int
  /-- Source line. -/
  line : Int
  /-- Source column. -/
  column : Int
  /-- Name index; only a piece of five numbers moves it. -/
  name : Int
  deriving DecidableEq, Repr

/-- The running values at the start. -/
def Running.zero : Running := ⟨0, 0, 0, 0⟩

/-- All running values: the generated column restarts with every line. -/
structure Position where
  /-- Column in the generated file. -/
  generated : Int
  /-- The source side. -/
  running : Running
  deriving DecidableEq, Repr

/-- What became of one piece. -/
inductive Outcome where
  /-- It maps a position to a source. -/
  | entry (e : Entry)
  /-- It only moves the generated column. -/
  | unmapped
  /-- It could not be used. -/
  | skipped
  deriving DecidableEq, Repr

/-- The position after the four or five differences of a piece; `none` when a sum overflows. -/
def Position.advance (p : Position) (generated source line column : Int) (name : Option Int) :
    Option Position := do
  let generated ← sum? p.generated generated
  let name ← match name with
    | some delta => sum? p.running.name delta
    | none => some p.running.name
  let source ← sum? p.running.source source
  let line ← sum? p.running.line line
  let column ← sum? p.running.column column
  return ⟨generated, ⟨source, line, column, name⟩⟩

/-- The entry at a position, if every running value fits a word. -/
def Position.entry? (p : Position) (line : UInt32) (named : Bool) : Option Entry := do
  let nameIndex ← if named then (word? p.running.name).map some else some none
  return {
    generatedLine := line
    generatedColumn := ← word? p.generated
    sourceIndex := ← word? p.running.source
    sourceLine := ← word? p.running.line
    sourceColumn := ← word? p.running.column
    nameIndex }

/-- Applies the differences of a piece that maps a position. An overflow leaves the running values
alone; a position out of range still counts in them. -/
def Position.map (p : Position) (atLine : UInt32) (generated source line column : Int)
    (name : Option Int) : Outcome × Position :=
  match p.advance generated source line column name with
  | none => (.skipped, p)
  | some next =>
    match next.entry? atLine name.isSome with
    | some e => (.entry e, next)
    | none => (.skipped, next)

/-- Reads one piece of the given line. -/
def readPiece (atLine : UInt32) (piece : List Char) : StateM Position Outcome := fun p =>
  match Delta.decode piece with
  | [generated] =>
    match sum? p.generated generated with
    | some column => (.unmapped, { p with generated := column })
    | none => (.skipped, p)
  | [generated, source, line, column] => p.map atLine generated source line column none
  | [generated, source, line, column, name] =>
    p.map atLine generated source line column (some name)
  | _ => (.skipped, p)

/-- The pieces of a line that are not empty. -/
def pieces (line : List Char) : List (List Char) := (line.splitOn ',').filter (!·.isEmpty)

/-- Reads one line. -/
def readLine (mode : Accumulation) (line : List Char × Nat) : StateM Running (List Outcome) :=
  fun running =>
    let start := match mode with
      | .crossLine => running
      | .perLine => .zero
    let (outcomes, p) := ((pieces line.1).mapM (readPiece (UInt32.ofNat line.2))).run ⟨0, start⟩
    (outcomes, p.running)

/-- The lines of a text with their numbers, as far as a number fits a word. -/
def numberedLines (text : List Char) : List (List Char × Nat) :=
  ((text.splitOn ';').take UInt32.size).zipIdx

/-- The outcomes of all pieces that are not empty, in the order of the text. -/
def outcomes (text : List Char) (mode : Accumulation) : List Outcome :=
  (((numberedLines text).mapM (readLine mode)).run .zero).1.flatten

/-- A mapping text read: its entries in the order of the text, and how many pieces gave none. -/
structure Decoded where
  /-- The entries. -/
  entries : List Entry
  /-- Pieces that could not be used. -/
  skipped : Nat
  /-- Pieces that only move the generated column. -/
  unmapped : Nat
  deriving DecidableEq, Repr

/-- The entry of an outcome. -/
def Outcome.entry? : Outcome → Option Entry
  | .entry e => some e
  | _ => none

/-- Sorts outcomes by kind. -/
def Decoded.ofOutcomes (all : List Outcome) : Decoded where
  entries := all.filterMap Outcome.entry?
  skipped := all.count .skipped
  unmapped := all.count .unmapped

/-- Reads a mapping text. -/
def decode (text : String) (mode : Accumulation) : Decoded :=
  .ofOutcomes (outcomes text.toList mode)

end OriginMap.Mappings
