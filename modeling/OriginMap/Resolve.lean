import OriginMap.Context
import OriginMap.Store

/-!
# Resolution

A position in a generated file is traced back to a source: the artifact of the application version, the
first source with the file's base name, and the entry of that source nearest to the position. Where the
source's text was captured, lines around the hit can be had with it.
-/

namespace OriginMap

open Files

/-- Why a position cannot be traced back. -/
inductive Miss where
  /-- There is no artifact. -/
  | noArtifact
  /-- The file matches no source. -/
  | unknownSource
  /-- The source has no entry. -/
  | noMapping
  deriving DecidableEq, Repr

/-- The wording of a miss. -/
def Miss.message : Miss → String
  | noArtifact => "no mapping artifact for this application version"
  | unknownSource => "generated file does not match any source in the artifact"
  | noMapping => "no mapping entry for the requested position"

/-- A position in a source. -/
structure Location where
  /-- The source. -/
  sourcePath : String
  /-- The line, from zero. -/
  line : UInt32
  /-- The column, from zero. -/
  column : UInt32
  /-- The name at the position, if the entry has one. -/
  name : Option String
  deriving DecidableEq, Repr

/-- A location and which of the artifact's sources it is in. -/
structure Hit where
  /-- The location. -/
  location : Location
  /-- The position of its source among the sources. -/
  sourceIndex : Nat
  deriving DecidableEq, Repr

/-- A location with the lines around it, where they are known. -/
structure ResolvedFrame where
  /-- The location. -/
  location : Location
  /-- The lines around it. -/
  context : Option Context
  deriving DecidableEq, Repr

/-- Traces a position back in one artifact. -/
def Snapshot.locate (s : Snapshot) (file : String) (line column : UInt32) : Except Miss Hit :=
  match (findSource? s.artifact.sources file).filter (· < UInt32.size) with
  | none => .error .unknownSource
  | some source =>
    match s.index.nearest? line column (some (UInt32.ofNat source)) with
    | none => .error .noMapping
    | some e =>
      match s.artifact.sources[e.sourceIndex.toNat]? with
      | none => .error .noMapping
      | some sourcePath =>
        .ok {
          location := {
            sourcePath
            line := e.sourceLine
            column := e.sourceColumn
            name := e.nameIndex.bind fun name => s.artifact.names[name.toNat]? }
          sourceIndex := e.sourceIndex.toNat }

/-- The lines around a hit. -/
def Snapshot.contextAt (s : Snapshot) (hit : Hit) (count : UInt64) : Option Context :=
  (s.artifact.sourceContent? hit.sourceIndex).bind fun content =>
    Context.extract? content hit.location.line.toUInt64 count

namespace Store

/-- Traces a position back. The index of the artifact is built, even for a miss in it. -/
def locate (store : Store) (application version file : String) (line column : UInt32) :
    Script (Except Miss (Snapshot × Hit) × Store) := do
  match ← store.get application version with
  | (none, store) => return (.error .noArtifact, store)
  | (some s, store) => return ((s.locate file line column).map fun hit => (s, hit), store.noteIndex s)

/-- The location of a position. -/
def resolve (store : Store) (application version file : String) (line column : UInt32) :
    Script (Except Miss Location × Store) := do
  let (answer, store) ← store.locate application version file line column
  return (answer.map fun (_, hit) => hit.location, store)

/-- The location of a position, with up to `count` lines of its source on each side. -/
def resolveWithContext (store : Store) (application version file : String) (line column : UInt32)
    (count : UInt64) : Script (Except Miss ResolvedFrame × Store) := do
  let (answer, store) ← store.locate application version file line column
  return (answer.map fun (s, hit) => ⟨hit.location, s.contextAt hit count⟩, store)

end Store

end OriginMap
