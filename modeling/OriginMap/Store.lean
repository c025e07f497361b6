import OriginMap.Artifact.Container
import OriginMap.Disk
import OriginMap.Index
import OriginMap.SourceName
import OriginMap.Stats

/-!
# The artifact store

A store keeps the artifacts of one data directory: on disk, and in a cache of those it has loaded. The
cache never changes what an answer is while only the store changes the directory. Failures of the disk
count as absence where an answer has room for that.
-/

namespace OriginMap

open Files

/-- Why an artifact is not taken in. -/
inductive IngestError where
  /-- The key is no key. -/
  | invalidKey (fault : Key.Fault)
  /-- The container holds no artifact. -/
  | refused (refusal : Container.Refusal)
  /-- The artifact cannot be written. -/
  | storage (cause : StorageError)
  deriving DecidableEq, Repr

/-- The wording of the error. -/
def IngestError.message : IngestError → String
  | invalidKey fault => fault.message
  | refused refusal => refusal.message
  | storage cause => "failed to persist mapping artifact: " ++ cause.message

/-- One loaded copy of an artifact. Copies are told apart by their serial numbers. -/
structure Snapshot where
  /-- The serial number. -/
  serial : Nat
  /-- The artifact. -/
  artifact : Artifact
  /-- How its mapping text is to be read. -/
  accumulation : Accumulation
  deriving DecidableEq, Repr

/-- The index of a copy. -/
def Snapshot.index (s : Snapshot) : Index :=
  Index.build s.artifact.mappings s.accumulation s.artifact.sources.length s.artifact.names.length

/-- A record of the copies made: how many there were, and which have had their index built. -/
structure Ledger where
  /-- How many copies were made; their serial numbers are those below. -/
  issued : Nat := 0
  /-- The serial numbers of the copies whose index was built. -/
  indexed : List Nat := []
  deriving DecidableEq, Repr

/-- Notes that the index of a copy was built. -/
def Ledger.note (ledger : Ledger) (s : Snapshot) : Ledger :=
  if s.serial ∈ ledger.indexed then ledger else { ledger with indexed := s.serial :: ledger.indexed }

/-- What the index of a copy kept and dropped, once it was built. -/
def Ledger.report? (ledger : Ledger) (s : Snapshot) : Option Report :=
  if s.serial ∈ ledger.indexed then some s.index.report else none

/-- An artifact store. -/
structure Store where
  /-- The data directory. -/
  disk : Disk
  /-- How mapping texts are to be read. -/
  accumulation : Accumulation
  /-- The loaded artifacts. -/
  cache : List (Key × Snapshot)
  /-- The copies made so far. -/
  ledger : Ledger
  deriving DecidableEq, Repr

namespace Store

/-- Opens a store with nothing loaded, making its directory if needed. The ledger goes on from copies
made before. -/
def openAt (root : Path) (mode : Accumulation) (ledger : Ledger) :
    Script (Except StorageError Store) := do
  match ← Disk.makeReady root with
  | .error e => return .error e
  | .ok disk => return .ok { disk, accumulation := mode, cache := [], ledger }

/-- The loaded copy of a key. -/
def cached? (store : Store) (key : Key) : Option Snapshot := store.cache.lookup key

/-- Drops the loaded copy of a key. -/
def forget (store : Store) (key : Key) : Store :=
  { store with cache := store.cache.filter fun item => item.1 ≠ key }

/-- Makes a copy of an artifact the loaded one of its key. -/
def remember (store : Store) (key : Key) (artifact : Artifact) : Snapshot × Store :=
  let snapshot : Snapshot := ⟨store.ledger.issued, artifact, store.accumulation⟩
  (snapshot, { store.forget key with
    cache := (key, snapshot) :: (store.forget key).cache
    ledger := { store.ledger with issued := store.ledger.issued + 1 } })

/-- Notes that the index of a copy was built. -/
def noteIndex (store : Store) (s : Snapshot) : Store := { store with ledger := store.ledger.note s }

/-- Takes an artifact in, in place of an earlier one of the same key. When writing fails, the earlier
one may be gone from disk, so it is dropped from the cache. -/
def ingestAt (store : Store) (application version : String) (data : Bytes) (storedAt : Time.Instant) :
    Script (Except IngestError Unit × Store) :=
  match Key.make application version with
  | .error fault => return (.error (.invalidKey fault), store)
  | .ok key =>
    match Container.parse key data storedAt with
    | .error refusal => return (.error (.refused refusal), store)
    | .ok artifact => do
      let sidecar : Sidecar :=
        { key, storedAt, sizeBytes := artifact.sizeBytes, sha256 := artifact.sha256 }
      match ← store.disk.write key data sidecar with
      | .error cause => return (.error (.storage cause), store.forget key)
      | .ok () => return (.ok (), (store.remember key artifact).2)

/-- Loads an artifact from disk into the cache. -/
def load (store : Store) (key : Key) : Script (Option Snapshot × Store) := do
  match ← store.disk.read key with
  | .ok (some (sidecar, data)) =>
    match Container.parse key data sidecar.storedAt with
    | .ok artifact =>
      let (snapshot, store) := store.remember key artifact
      return (some snapshot, store)
    | .error _ => return (none, store)
  | _ => return (none, store)

/-- The loaded copy of an artifact, loading it if needed; none if there is no such artifact. -/
def get (store : Store) (application version : String) : Script (Option Snapshot × Store) :=
  match Key.make application version with
  | .error _ => return (none, store)
  | .ok key =>
    match store.cached? key with
    | some snapshot => return (some snapshot, store)
    | none => store.load key

/-- The text of the first source that matches the hint, if it was captured. -/
def sourceContent (store : Store) (application version hint : String) :
    Script (Option String × Store) := do
  let (found, store) ← store.get application version
  return (found.bind fun s =>
    (findSource? s.artifact.sources hint).bind s.artifact.sourceContent?, store)

/-- Removes an artifact from disk and cache, and says whether there was one in either. -/
def remove (store : Store) (application version : String) :
    Script (Except StorageError Bool × Store) :=
  match Key.make application version with
  | .error _ => return (.ok false, store)
  | .ok key => do
    match ← store.disk.delete key with
    | .error e => return (.error e, store)
    | .ok existed => return (.ok (existed || (store.cached? key).isSome), store.forget key)

/-- Removes a key's artifact if its own sidecar says that it was stored before the cutoff, and says
whether that was done. -/
def evictIfExpired (store : Store) (cutoff : Time.Instant) (key : Key) : Script (Bool × Store) := do
  match ← store.disk.readSidecar key with
  | .ok (some sidecar) =>
    if sidecar.storedAt.before cutoff then
      match ← store.disk.delete key with
      | .ok _ => return (true, store.forget key)
      | .error _ => return (false, store)
    else return (false, store)
  | _ => return (false, store)

/-- Removes the expired artifacts among the given keys, and counts them. -/
def evictAll (store : Store) (cutoff : Time.Instant) : List Key → Script (Nat × Store)
  | [] => return (0, store)
  | key :: keys => do
    let (gone, store) ← store.evictIfExpired cutoff key
    let (count, store) ← store.evictAll cutoff keys
    return (if gone then count + 1 else count, store)

/-- Removes the artifacts that are older than the given age, and counts them. -/
def sweepExpired (store : Store) (now : Time.Instant) (age : Time.Span) : Script (Nat × Store) :=
  (now.minus? age).elim (return (0, store)) fun cutoff => do
    match ← store.disk.list with
    | .error _ => return (0, store)
    | .ok sidecars =>
      let expired := sidecars.filter fun sidecar => sidecar.storedAt.before cutoff
      store.evictAll cutoff (expired.map Sidecar.key)

/-- Counts and sizes of the artifacts on disk, if their sizes can be added up. -/
def stats (store : Store) : Script (Option Stats) := do
  match ← store.disk.list with
  | .error _ => return Stats.ofArtifacts []
  | .ok sidecars =>
    return Stats.ofArtifacts (sidecars.map fun sidecar =>
      ⟨sidecar.key, sidecar.sizeBytes, sidecar.storedAt⟩)

end Store

end OriginMap
