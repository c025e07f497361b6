import OriginMap.Json.Record
import OriginMap.Json.Value
import OriginMap.Key
import OriginMap.Time.Rfc3339

/-!
# Sidecars

Beside the data of an artifact stands a JSON file that says whose data it is, when it was stored, and
its size and digest. The key in a sidecar is not checked, and unknown members are passed over.
-/

namespace OriginMap

/-- What is kept beside the data of an artifact. -/
structure Sidecar where
  /-- The key of the artifact. -/
  key : Key
  /-- When it was stored. -/
  storedAt : Time.Instant
  /-- The size of the data in bytes. -/
  sizeBytes : UInt64
  /-- The digest of the data, in hexadecimal notation. -/
  sha256 : String
  deriving DecidableEq, Repr

namespace Sidecar

/-- The sidecar as JSON. -/
def toJson (s : Sidecar) : Json.Value :=
  .object [
    ("application_id", .text s.key.application),
    ("version", .text s.key.version),
    ("stored_at", .text (String.ofList s.storedAt.timestamp)),
    ("size_bytes", .natural s.sizeBytes.toNat),
    ("sha256", .text s.sha256)]

/-- The contents of a sidecar's file. -/
def render (s : Sidecar) : Bytes := utf8 s.toJson.render

/-- The members of a sidecar met so far. -/
structure Members where
  /-- The application. -/
  application : Option String := none
  /-- The version. -/
  version : Option String := none
  /-- When the artifact was stored. -/
  storedAt : Option Time.Instant := none
  /-- The size of the data. -/
  sizeBytes : Option UInt64 := none
  /-- The digest of the data. -/
  sha256 : Option String := none
  deriving DecidableEq, Repr

/-- Reads a timestamp. -/
def timestamp : Json.Reader Time.Instant := fun bytes => do
  let (value, rest) ← Json.text bytes
  match Time.Timestamp.read? value.toList with
  | some t => return (t, rest)
  | none => .error .mismatched

open Json in
/-- The members of a sidecar, in their order. -/
def fields : List (RecordField Members) :=
  [{ key := "application_id", met := (·.application.isSome)
     read := fun m bytes => do
       let (value, rest) ← text bytes
       return ({ m with application := some value }, rest) },
   { key := "version", met := (·.version.isSome)
     read := fun m bytes => do
       let (value, rest) ← text bytes
       return ({ m with version := some value }, rest) },
   { key := "stored_at", met := (·.storedAt.isSome)
     read := fun m bytes => do
       let (value, rest) ← timestamp bytes
       return ({ m with storedAt := some value }, rest) },
   { key := "size_bytes", met := (·.sizeBytes.isSome)
     read := fun m bytes => do
       let (value, rest) ← natural bytes
       return ({ m with sizeBytes := some value }, rest) },
   { key := "sha256", met := (·.sha256.isSome)
     read := fun m bytes => do
       let (value, rest) ← text bytes
       return ({ m with sha256 := some value }, rest) }]

/-- The sidecar of its members, all of which are required. -/
def Members.finish : Members → Except Json.Fault Sidecar
  | ⟨some application, some version, some storedAt, some sizeBytes, some sha256⟩ =>
    .ok ⟨⟨application, version⟩, storedAt, sizeBytes, sha256⟩
  | _ => .error .mismatched

/-- Reads the contents of a sidecar's file. -/
def read (contents : Bytes) : Except Json.Fault Sidecar :=
  Json.document (Json.record fields {} Members.finish) contents

end Sidecar

end OriginMap
