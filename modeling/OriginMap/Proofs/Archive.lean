import Mathlib.Data.List.Nodup
import OriginMap.Proofs.SourceName
import OriginMap.Proofs.Stats
import OriginMap.Store

/-!
# Archives

An archive is what an artifact store is meant to be: a map from keys to raw bytes and the instants at which
they were taken in. It knows neither files nor caches. Every call on a store has an answer that an
archive gives, and a change that it makes to the archive.
-/

namespace OriginMap

/-- Data that was taken in under a key, and the artifact that it holds. -/
structure Record where
  /-- The key. -/
  key : Key
  /-- The raw bytes. -/
  data : Bytes
  /-- When they were taken in. -/
  storedAt : Time.Instant
  /-- The artifact. -/
  artifact : Artifact
  /-- The bytes hold the artifact. -/
  accepted : Container.parse key data storedAt = .ok artifact

/-- The row of a record in statistics. -/
def Record.stat (r : Record) : ArtifactStat := ⟨r.key, UInt64.ofNat r.data.length, r.storedAt⟩

/-- The text of the first source that a hint matches, if it was captured. -/
def Record.text? (r : Record) (hint : String) : Option String :=
  (r.artifact.sources.findIdx? fun source => Matches hint source).bind fun i =>
    r.artifact.sourcesContent[i]?.join

/-- It is the text of the source that is found. -/
theorem Record.text?_eq (r : Record) (hint : String) :
    r.text? hint = (findSource? r.artifact.sources hint).bind r.artifact.sourceContent? := by
  rw [Record.text?, findSource?_eq_findIdx?]
  rfl

/-- Records of different keys. -/
structure Archive where
  /-- The records. -/
  records : List Record
  /-- Their keys are different. -/
  distinct : (records.map Record.key).Nodup

namespace Archive

/-- The archive without records. -/
def empty : Archive := ⟨[], List.nodup_nil⟩

/-- The record of a key. -/
def find? (a : Archive) (key : Key) : Option Record := a.records.find? fun r => r.key = key

/-- The records that satisfy a condition. -/
def keep (a : Archive) (condition : Record → Bool) : Archive where
  records := a.records.filter condition
  distinct := a.distinct.sublist (List.filter_sublist.map Record.key)

/-- An archive without a key. -/
def erase (a : Archive) (key : Key) : Archive := a.keep fun r => r.key ≠ key

/-- No record of an archive without a key has that key. -/
theorem notMem_erase (a : Archive) (key : Key) : key ∉ (a.erase key).records.map Record.key := by
  intro h
  obtain ⟨r, hr, hkey⟩ := List.mem_map.mp h
  simpa [hkey] using (List.mem_filter.mp hr).2

/-- An archive with a record in place of an earlier one of its key. -/
def put (a : Archive) (r : Record) : Archive where
  records := r :: (a.erase r.key).records
  distinct := List.nodup_cons.mpr ⟨a.notMem_erase r.key, (a.erase r.key).distinct⟩

/-- The number of the records, the sum of their sizes, and their rows sorted by key, if a word can hold the
sum. -/
def stats (a : Archive) : Option Stats :=
  let rows := a.records.map Record.stat
  if exactTotal rows < UInt64.size then
    some {
      count := rows.length
      totalBytes := UInt64.ofNat (exactTotal rows)
      perArtifact := rows.insertionSort ArtifactStat.upTo }
  else none

/-! ## Look-up -/

/-- A key is found exactly as a record that has it. -/
theorem find?_eq_some {a : Archive} {key : Key} {r : Record} :
    a.find? key = some r ↔ r ∈ a.records ∧ r.key = key := by
  constructor
  · intro h
    exact ⟨List.mem_of_find?_eq_some h, by simpa using List.find?_some h⟩
  · rintro ⟨hr, rfl⟩
    cases hfind : a.find? r.key with
    | none => simpa using List.find?_eq_none.mp hfind r hr
    | some other =>
      have hmem := List.mem_of_find?_eq_some hfind
      have hkey : other.key = r.key := by simpa using List.find?_some hfind
      rw [List.inj_on_of_nodup_map a.distinct hmem hr hkey]

/-- A key is not found exactly if no record has it. -/
theorem find?_eq_none {a : Archive} {key : Key} :
    a.find? key = none ↔ ∀ r ∈ a.records, r.key ≠ key := by
  simp [find?, List.find?_eq_none]

/-- An erased key has no record; the others have the records they had. -/
theorem find?_erase (a : Archive) (gone key : Key) :
    (a.erase gone).find? key = if key = gone then none else a.find? key := by
  rw [find?, erase, keep, List.find?_filter]
  by_cases hkey : key = gone
  · rw [if_pos hkey, List.find?_eq_none]
    simp [hkey]
  · rw [if_neg hkey]
    congr 1
    funext r
    by_cases hr : r.key = key <;> simp [hr, hkey]

/-- A key has the record that was put last; the others have the records they had. -/
theorem find?_put (a : Archive) (r : Record) (key : Key) :
    (a.put r).find? key = if key = r.key then some r else a.find? key := by
  have hrest := a.find?_erase r.key key
  rw [find?, put, List.find?_cons]
  by_cases hkey : key = r.key
  · simp [hkey]
  · rw [if_neg hkey] at hrest ⊢
    rw [decide_eq_false (Ne.symm hkey)]
    exact hrest

/-- The records without a key. -/
theorem mem_erase {a : Archive} {key : Key} {r : Record} :
    r ∈ (a.erase key).records ↔ r ∈ a.records ∧ r.key ≠ key := by
  simp [erase, keep, List.mem_filter]

/-- Keeping records by conditions that say the same of the records is the same. -/
theorem keep_congr {a : Archive} {condition condition' : Record → Bool}
    (h : ∀ r ∈ a.records, condition r = condition' r) : a.keep condition = a.keep condition' := by
  rw [keep, keep, Archive.mk.injEq]
  exact List.filter_congr h

/-- Keeping all records changes nothing. -/
theorem keep_eq_self {a : Archive} {condition : Record → Bool}
    (h : ∀ r ∈ a.records, condition r = true) : a.keep condition = a := by
  obtain ⟨records, distinct⟩ := a
  rw [keep, Archive.mk.injEq]
  exact List.filter_eq_self.mpr h

/-- Records that are kept twice satisfy both conditions. -/
theorem keep_keep (a : Archive) (condition condition' : Record → Bool) :
    (a.keep condition).keep condition' = a.keep fun r => condition r && condition' r := by
  rw [keep, keep, keep, Archive.mk.injEq, List.filter_filter]
  exact List.filter_congr fun r _ => Bool.and_comm _ _

/-- The records after one was put. -/
theorem mem_put {a : Archive} {r other : Record} :
    other ∈ (a.put r).records ↔ other = r ∨ (other ∈ a.records ∧ other.key ≠ r.key) := by
  rw [put, List.mem_cons, mem_erase]

end Archive

/-! ## Calls -/

namespace Store

/-- A call on a store. -/
inductive Call where
  /-- The store is opened anew, with nothing loaded. -/
  | reopen (mode : Accumulation)
  /-- An artifact is taken in. -/
  | ingest (application version : String) (data : Bytes) (storedAt : Time.Instant)
  /-- An artifact is asked for. -/
  | get (application version : String)
  /-- The text of a source is asked for. -/
  | sourceContent (application version hint : String)
  /-- An artifact is removed. -/
  | remove (application version : String)
  /-- Old artifacts are removed. -/
  | sweep (now : Time.Instant) (age : Time.Span)
  /-- Statistics are asked for. -/
  | stats
  deriving DecidableEq, Repr

/-- The key of a call, if it has one. -/
def Call.key? : Call → Option Key
  | ingest application version _ _ | get application version | sourceContent application version _
  | remove application version => (Key.make application version).toOption
  | reopen _ | sweep _ _ | stats => none

/-- The instant at which a call takes an artifact in. -/
def Call.storedAt? : Call → Option Time.Instant
  | ingest _ _ _ storedAt => some storedAt
  | _ => none

/-- What a call answers. -/
inductive Answer where
  /-- Whether the store was opened. -/
  | reopened (result : Except StorageError Unit)
  /-- Whether an artifact was taken in. -/
  | ingested (result : Except IngestError Unit)
  /-- An artifact that was asked for. -/
  | artifact (found : Option Artifact)
  /-- A text that was asked for. -/
  | content (found : Option String)
  /-- Whether there was something to remove. -/
  | removed (result : Except StorageError Bool)
  /-- How many artifacts were removed. -/
  | swept (count : ℕ)
  /-- Statistics, if the sizes can be added up. -/
  | stats (stats : Option Stats)
  deriving DecidableEq, Repr

/-- What a call does with a store. -/
def Call.perform (store : Store) : Call → Files.Script (Answer × Store)
  | reopen mode => do
    match ← openAt store.disk.root mode store.ledger with
    | .ok opened => return (.reopened (.ok ()), opened)
    | .error e => return (.reopened (.error e), store)
  | ingest application version data storedAt => do
    let (result, store) ← store.ingestAt application version data storedAt
    return (.ingested result, store)
  | get application version => do
    let (found, store) ← store.get application version
    return (.artifact (found.map Snapshot.artifact), store)
  | sourceContent application version hint => do
    let (found, store) ← store.sourceContent application version hint
    return (.content found, store)
  | remove application version => do
    let (result, store) ← store.remove application version
    return (.removed result, store)
  | sweep now age => do
    let (count, store) ← store.sweepExpired now age
    return (.swept count, store)
  | stats => return (.stats (← store.stats), store)

/-- What some calls answer, one after another. -/
def answers (store : Store) : List Call → Files.Script (List Answer)
  | [] => return []
  | call :: calls => do
    let (answer, store) ← call.perform store
    let others ← store.answers calls
    return answer :: others

/-- What some calls answer on a store that is opened first. -/
def session (root : Files.Path) (mode : Accumulation) (calls : List Call) :
    Files.Script (Except StorageError (List Answer)) := do
  match ← openAt root mode {} with
  | .error e => return .error e
  | .ok store => return .ok (← store.answers calls)

end Store

namespace Archive

/-- The record that two texts are the key of. -/
def lookUp (a : Archive) (application version : String) : Option Record :=
  match Key.make application version with
  | .error _ => none
  | .ok key => a.find? key

/-- Takes data in, in place of an earlier record of its key. -/
def ingest (a : Archive) (application version : String) (data : Bytes) (storedAt : Time.Instant) :
    Except IngestError Unit × Archive :=
  match Key.make application version with
  | .error fault => (.error (.invalidKey fault), a)
  | .ok key =>
    match haccepted : Container.parse key data storedAt with
    | .error refusal => (.error (.refused refusal), a)
    | .ok artifact => (.ok (), a.put ⟨key, data, storedAt, artifact, haccepted⟩)

/-- Data that holds an artifact becomes the record of its key. -/
theorem ingest_eq_put {a : Archive} {application version : String} {data : Bytes}
    {storedAt : Time.Instant} {key : Key} {artifact : Artifact}
    (hmake : Key.make application version = .ok key)
    (h : Container.parse key data storedAt = .ok artifact) :
    a.ingest application version data storedAt =
      (.ok (), a.put ⟨key, data, storedAt, artifact, h⟩) := by
  unfold ingest
  simp only [hmake]
  split
  · next hrefused =>
    rw [h] at hrefused
    cases hrefused
  · next found haccepted =>
    obtain rfl : artifact = found := Except.ok.inj (h.symm.trans haccepted)
    rfl

/-- Data that holds no artifact changes nothing. -/
theorem ingest_eq_refused {a : Archive} {application version : String} {data : Bytes}
    {storedAt : Time.Instant} {key : Key} {refusal : Container.Refusal}
    (hmake : Key.make application version = .ok key)
    (h : Container.parse key data storedAt = .error refusal) :
    a.ingest application version data storedAt = (.error (.refused refusal), a) := by
  unfold ingest
  simp only [hmake]
  split
  · next found hrefused =>
    obtain rfl : refusal = found := Except.error.inj (h.symm.trans hrefused)
    rfl
  · next haccepted =>
    rw [h] at haccepted
    cases haccepted

/-- Removes a record and says whether there was one. -/
def remove (a : Archive) (application version : String) : Bool × Archive :=
  match Key.make application version with
  | .error _ => (false, a)
  | .ok key => ((a.find? key).isSome, a.erase key)

/-- Removes the records from before a cutoff and counts them. -/
def sweep (a : Archive) (cutoff : Time.Instant) : ℕ × Archive :=
  ((a.records.filter fun r => r.storedAt.before cutoff).length,
    a.keep fun r => !r.storedAt.before cutoff)

/-- What a call answers on an archive, and the archive after it. -/
def answer (a : Archive) : Store.Call → Store.Answer × Archive
  | .reopen _ => (.reopened (.ok ()), a)
  | .ingest application version data storedAt =>
    let (result, after) := a.ingest application version data storedAt
    (.ingested result, after)
  | .get application version => (.artifact ((a.lookUp application version).map Record.artifact), a)
  | .sourceContent application version hint =>
    (.content ((a.lookUp application version).bind (·.text? hint)), a)
  | .remove application version =>
    let (existed, after) := a.remove application version
    (.removed (.ok existed), after)
  | .sweep now age =>
    (now.minus? age).elim (.swept 0, a) fun cutoff =>
      let (count, after) := a.sweep cutoff
      (.swept count, after)
  | .stats => (.stats a.stats, a)

/-- What some calls answer on an archive, one after another. -/
def answers (a : Archive) : List Store.Call → List Store.Answer
  | [] => []
  | call :: calls => (a.answer call).1 :: (a.answer call).2.answers calls

end Archive

end OriginMap
