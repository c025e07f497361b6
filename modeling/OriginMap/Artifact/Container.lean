import OriginMap.Artifact
import OriginMap.Json.Record

/-!
# Artifact containers

An artifact comes as a JSON container of version 3. Unknown members are passed over, most known ones
may be absent or null, and the texts of the sources are brought to the number of sources.
-/

namespace OriginMap.Container

/-- The members of a container met so far; a member that was met may still be null. -/
structure Members where
  /-- The container's version. -/
  version : Option (Option UInt64) := none
  /-- The name of the built file. -/
  file : Option (Option String) := none
  /-- The sources. -/
  sources : Option (Option (List String)) := none
  /-- The texts of the sources. -/
  sourcesContent : Option (Option (List (Option String))) := none
  /-- The names. -/
  names : Option (List String) := none
  /-- The mapping text. -/
  mappings : Option (Option String) := none
  deriving DecidableEq, Repr

open Json in
/-- The known members, in their order. -/
def fields : List (RecordField Members) :=
  [{ key := "version", met := (·.version.isSome)
     read := fun m bytes => do
       let (value, rest) ← nullable natural bytes
       return ({ m with version := some value }, rest) },
   { key := "file", met := (·.file.isSome)
     read := fun m bytes => do
       let (value, rest) ← nullable text bytes
       return ({ m with file := some value }, rest) },
   { key := "sources", met := (·.sources.isSome)
     read := fun m bytes => do
       let (value, rest) ← nullable (list text) bytes
       return ({ m with sources := some value }, rest) },
   { key := "sourcesContent", met := (·.sourcesContent.isSome)
     read := fun m bytes => do
       let (value, rest) ← nullable (list (nullable text)) bytes
       return ({ m with sourcesContent := some value }, rest) },
   { key := "names", met := (·.names.isSome)
     read := fun m bytes => do
       let (value, rest) ← list text bytes
       return ({ m with names := some value }, rest) },
   { key := "mappings", met := (·.mappings.isSome)
     read := fun m bytes => do
       let (value, rest) ← nullable text bytes
       return ({ m with mappings := some value }, rest) }]

/-- Reads the members of a container. -/
def read (data : Bytes) : Except Json.Fault Members :=
  Json.document (Json.record fields {} .ok) data

/-- A member that a container must have. -/
inductive Required where
  /-- The sources. -/
  | sources
  /-- The mapping text. -/
  | mappings
  deriving DecidableEq, Repr

/-- The key of the member. -/
def Required.key : Required → String
  | sources => "sources"
  | mappings => "mappings"

/-- Why a container holds no artifact. -/
inductive Refusal where
  /-- It cannot be read. -/
  | malformed (fault : Json.Fault)
  /-- A required member is absent or null. -/
  | missing (member : Required)
  /-- It is of another version. -/
  | unsupported (version : UInt64)
  deriving DecidableEq, Repr

/-- The wording of the error. -/
def Refusal.message : Refusal → String
  | malformed fault => "malformed mapping artifact: " ++ fault.category
  | missing member => "mapping artifact is missing required field: " ++ member.key
  | unsupported version =>
    "unsupported mapping artifact version: expected 3, got " ++ toString version.toNat

/-- The only version that is understood. -/
def supportedVersion : UInt64 := 3

/-- Brings a list to the given length, filling up with nothing. -/
def aligned (length : Nat) (contents : List (Option String)) : List (Option String) :=
  contents.take length ++ List.replicate (length - contents.length) none

/-- The artifact of a container. Its version is judged first, then its sources, then its mapping
text. -/
def parse (key : Key) (data : Bytes) (storedAt : Time.Instant) : Except Refusal Artifact :=
  match read data with
  | .error fault => .error (.malformed fault)
  | .ok members =>
    match members.version.join.filter (· ≠ supportedVersion) with
    | some version => .error (.unsupported version)
    | none =>
      match members.sources.join with
      | none => .error (.missing .sources)
      | some sources =>
        match members.mappings.join with
        | none => .error (.missing .mappings)
        | some mappings =>
          .ok {
            key, sources, mappings, storedAt
            file := members.file.join
            sourcesContent := aligned sources.length (members.sourcesContent.join.getD [])
            names := members.names.getD []
            sizeBytes := UInt64.ofNat data.length
            sha256 := Sha256.hexDigest data }

end OriginMap.Container
