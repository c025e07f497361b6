import OriginMap.Key
import OriginMap.Time.Instant
import OriginMap.Word

/-!
# Store statistics

What a store reports about its artifacts: their number, their total size as a 64-bit word, and one row
for each, in the order of their keys. The sizes are added up with a check at every step, and there are no
statistics when a word cannot hold their sum.
-/

namespace OriginMap

/-- What is reported about one artifact. -/
structure ArtifactStat where
  /-- The artifact's key. -/
  key : Key
  /-- The size of its data in bytes. -/
  sizeBytes : UInt64
  /-- When it was stored. -/
  storedAt : Time.Instant
  deriving DecidableEq, Repr

/-- What is reported about a store. -/
structure Stats where
  /-- How many artifacts there are. -/
  count : Nat
  /-- The sum of their sizes. -/
  totalBytes : UInt64
  /-- A row for each artifact. -/
  perArtifact : List ArtifactStat
  deriving DecidableEq, Repr

/-- Artifacts in the order of their keys; those of one key stay in the order given. -/
def ArtifactStat.sorted (artifacts : List ArtifactStat) : List ArtifactStat :=
  artifacts.mergeSort fun a b => (compare a.key b.key).isLE

/-- A total with the size of one more artifact, if a word can hold it. -/
def ArtifactStat.addTo (total : UInt64) (artifact : ArtifactStat) : Option UInt64 :=
  long? (total.toNat + artifact.sizeBytes.toNat)

/-- Statistics over artifacts given in any order. There are none when the sizes come to more than a word
holds: a program that is built with overflow checks stops there. Built without them it would go on with
what the word holds of the sum. -/
def Stats.ofArtifacts (artifacts : List ArtifactStat) : Option Stats :=
  let rows := ArtifactStat.sorted artifacts
  (rows.foldlM ArtifactStat.addTo 0).map fun total =>
    { count := rows.length, totalBytes := total, perArtifact := rows }

end OriginMap
