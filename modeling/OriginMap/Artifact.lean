import OriginMap.Key
import OriginMap.Time.Instant

/-!
# Artifacts

What is known about one built file: its sources, their texts where they were captured, its names, and
its mapping text, which stays undecoded until an index is built.
-/

namespace OriginMap

/-- A mapping artifact. -/
structure Artifact where
  /-- The key it was stored under. -/
  key : Key
  /-- The name of the built file, if the container gives it. -/
  file : Option String
  /-- The sources. -/
  sources : List String
  /-- For each source, its text if it was captured. -/
  sourcesContent : List (Option String)
  /-- The names. -/
  names : List String
  /-- The mapping text. -/
  mappings : String
  /-- When it was stored. -/
  storedAt : Time.Instant
  /-- The size of the container in bytes. -/
  sizeBytes : UInt64
  /-- The digest of the container, in hexadecimal notation. -/
  sha256 : String
  deriving DecidableEq, Repr

namespace Artifact

/-- Whether the text of any source was captured. -/
def hasSourcesContent (a : Artifact) : Bool := a.sourcesContent.any Option.isSome

/-- The text of a source, if there is such a source and its text was captured. -/
def sourceContent? (a : Artifact) (index : Nat) : Option String := (a.sourcesContent[index]?).join

end Artifact

end OriginMap
