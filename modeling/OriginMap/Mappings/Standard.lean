import OriginMap.Mappings

/-!
# The standard text of entries

The text that a generator writes for a list of entries in non-decreasing generated lines. Each entry
is written as its differences to the entries before it; the mode says whether the source side starts
anew with each line.
-/

namespace OriginMap.Mappings

/-- The signed number of a word. -/
def number (w : UInt32) : Int := (w.toNat : Int)

/-- The differences of an entry to the running values, five of them when it has a name. -/
def differences (p : Position) (e : Entry) : List Int :=
  [number e.generatedColumn - p.generated, number e.sourceIndex - p.running.source,
    number e.sourceLine - p.running.line, number e.sourceColumn - p.running.column]
    ++ match e.nameIndex with
      | some name => [number name - p.running.name]
      | none => []

/-- The running values at an entry. -/
def Position.after (p : Position) (e : Entry) : Position where
  generated := number e.generatedColumn
  running := {
    source := number e.sourceIndex
    line := number e.sourceLine
    column := number e.sourceColumn
    name := match e.nameIndex with
      | some name => number name
      | none => p.running.name }

/-- The segments of a line's entries, and the running values after them. -/
def lineSegments (p : Position) : List Entry → List (List Char) × Position
  | [] => ([], p)
  | e :: rest =>
    let (segments, last) := lineSegments (p.after e) rest
    (Delta.encode (differences p e) :: segments, last)

/-- The running values with which a line starts, given those after the line before. -/
def lineStart (mode : Accumulation) (running : Running) : Position :=
  ⟨0, match mode with
    | .crossLine => running
    | .perLine => .zero⟩

/-- The texts of `count` lines from the given line number on. -/
def lineTexts (mode : Accumulation) (entries : List Entry) (running : Running) (line : Nat) :
    Nat → List (List Char)
  | 0 => []
  | count + 1 =>
    let here := entries.filter fun e => e.generatedLine.toNat = line
    let (segments, last) := lineSegments (lineStart mode running) here
    [','].intercalate segments :: lineTexts mode entries last.running (line + 1) count

/-- One line for each generated line up to the last entry's. -/
def lineCount (entries : List Entry) : Nat :=
  match entries.getLast? with
  | some e => e.generatedLine.toNat + 1
  | none => 0

/-- The standard text of entries. -/
def standardText (mode : Accumulation) (entries : List Entry) : List Char :=
  [';'].intercalate (lineTexts mode entries .zero 0 (lineCount entries))

end OriginMap.Mappings
