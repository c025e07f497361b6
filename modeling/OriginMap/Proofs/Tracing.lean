import OriginMap.Proofs.Location
import OriginMap.Proofs.SourceName

/-!
# What a position is traced back to

Given the sources, the names and the entries of an artifact, a position in a generated file has one
answer: the file matches no source, its source has no entry, or the first of the source's nearest entries
tells the location. The artifact that has the standard text of the entries gives this answer.
-/

namespace OriginMap

/-! ## Answers -/

/-- The answers to where a position of a file comes from. Entries tell their sources by 32-bit words, so a
source that comes too late for one is not known. -/
inductive Traces (sources names : List String) (entries : List Entry) (file : String)
    (line column : UInt32) : Except Miss Location → Prop
  /-- The file matches no source. -/
  | unmatched (h : Unmatched sources file) :
      Traces sources names entries file line column (.error .unknownSource)
  /-- The file matches a source that has no 32-bit number. -/
  | unnumbered {s : ℕ} (hmatch : FirstMatch sources file s) (hs : UInt32.size ≤ s) :
      Traces sources names entries file line column (.error .unknownSource)
  /-- No entry is of the source. -/
  | unmapped {s : ℕ} (hmatch : FirstMatch sources file s) (hs : s < UInt32.size)
      (hnone : ∀ e ∈ entries, e.sourceIndex.toNat ≠ s) :
      Traces sources names entries file line column (.error .noMapping)
  /-- Of the source's entries one is the first of the nearest. -/
  | found {s : ℕ} {source : String} {e : Entry} (hmatch : FirstMatch sources file s)
      (hsource : sources[s]? = some source)
      (hnearest : FirstNearest line column (entries.filter fun e => e.sourceIndex.toNat = s) e) :
      Traces sources names entries file line column
        (.ok ⟨source, e.sourceLine, e.sourceColumn, e.nameIndex.bind fun n => names[n.toNat]?⟩)

/-- A position has one answer. -/
theorem Traces.unique {sources names : List String} {entries : List Entry} {file : String}
    {line column : UInt32} {answer answer' : Except Miss Location}
    (h : Traces sources names entries file line column answer)
    (h' : Traces sources names entries file line column answer') : answer = answer' := by
  -- An entry of the source is told by a word, so its source is none that comes too late.
  have hentry {s : ℕ} {e : Entry}
      (hnearest : FirstNearest line column (entries.filter fun e => e.sourceIndex.toNat = s) e) :
      e ∈ entries ∧ e.sourceIndex.toNat = s := by
    simpa using hnearest.mem
  cases h with
  | unmatched hnone =>
    cases h' with
    | unmatched => rfl
    | unnumbered => rfl
    | unmapped hmatch => exact absurd hnone hmatch.not_unmatched
    | found hmatch => exact absurd hnone hmatch.not_unmatched
  | unnumbered hmatch hs =>
    cases h' with
    | unmatched => rfl
    | unnumbered => rfl
    | unmapped hmatch' hs' =>
      have := hmatch.unique hmatch'
      omega
    | @found _ _ e hmatch' _ hnearest =>
      have hsource := (hentry hnearest).2
      have hsame := hmatch.unique hmatch'
      have := e.sourceIndex.toNat_lt_size
      omega
  | unmapped hmatch hs hnone =>
    cases h' with
    | unmatched hnone' => exact absurd hnone' hmatch.not_unmatched
    | unnumbered hmatch' hs' =>
      have := hmatch.unique hmatch'
      omega
    | unmapped => rfl
    | found hmatch' _ hnearest =>
      obtain ⟨he, hsource⟩ := hentry hnearest
      exact absurd (hsource.trans (hmatch'.unique hmatch)) (hnone _ he)
  | @found s source e hmatch hsource hnearest =>
    cases h' with
    | unmatched hnone => exact absurd hnone hmatch.not_unmatched
    | unnumbered hmatch' hs' =>
      have hsame := hmatch.unique hmatch'
      have := e.sourceIndex.toNat_lt_size
      have := (hentry hnearest).2
      omega
    | unmapped hmatch' hs' hnone =>
      obtain ⟨he, hs⟩ := hentry hnearest
      exact absurd (hs.trans (hmatch.unique hmatch')) (hnone _ he)
    | found hmatch' hsource' hnearest' =>
      obtain rfl := hmatch.unique hmatch'
      obtain rfl := hnearest.unique hnearest'
      obtain rfl := Option.some.inj (hsource.symm.trans hsource')
      rfl

/-- Entries point at sources and names that exist. -/
def Pointing (sources names : List String) (entries : List Entry) : Prop :=
  ∀ e ∈ entries, e.sourceIndex.toNat < sources.length ∧ ∀ n ∈ e.nameIndex, n.toNat < names.length

/-- What a loaded artifact consists of. -/
structure Snapshot.Holds (s : Snapshot) (mode : Accumulation) (sources names : List String)
    (mappings : String) : Prop where
  /-- Its mapping text is read in this mode. -/
  mode : s.accumulation = mode
  /-- Its sources. -/
  sources : s.artifact.sources = sources
  /-- Its names. -/
  names : s.artifact.names = names
  /-- Its mapping text. -/
  mappings : s.artifact.mappings = mappings

section Locate

variable {s : Snapshot} {mode : Accumulation} {sources names : List String} {entries : List Entry}

/-- The index of a standard text has the entries of the text. -/
theorem entries_standardText
    (h : s.Holds mode sources names (String.ofList (Mappings.standardText mode entries)))
    (hascending : Ascending entries) (hpointing : Pointing sources names entries) :
    s.index.entries.toList = entries := by
  rw [Snapshot.index, h.mode, h.sources, h.names, h.mappings, Index.build, Mappings.decode,
    String.toList_ofList, Mappings.outcomes_standardText mode hascending,
    Mappings.ofOutcomes_map_entry, List.filter_eq_self]
  exact fun e he => Entry.valid_iff.mpr (hpointing e he)

/-- The artifact with the standard text of some entries gives the answers of these entries. -/
theorem traces_locate
    (h : s.Holds mode sources names (String.ofList (Mappings.standardText mode entries)))
    (hascending : Ascending entries) (hpointing : Pointing sources names entries) (file : String)
    (line column : UInt32) : Traces sources names entries file line column
      ((s.locate file line column).map Hit.location) := by
  have hentries := entries_standardText h hascending hpointing
  have hlocated := located_locate s file line column
  rw [← h.sources, ← h.names]
  generalize s.locate file line column = answer at hlocated ⊢
  cases hlocated with
  | unmatched hfind => exact .unmatched (findSource?_eq_none.mp hfind)
  | unnumbered hfind hlate => exact .unnumbered (firstMatch_of_findSource? hfind) hlate
  | unmapped hfind hsource hnone =>
    refine .unmapped (firstMatch_of_findSource? hfind) hsource fun e he => hnone e ?_
    rwa [← Array.mem_toList_iff, hentries]
  | @found e path hfind hnearest hpath =>
    have hcandidates : s.index.candidates (some e.sourceIndex) =
        entries.filter fun other => other.sourceIndex.toNat = e.sourceIndex.toNat := by
      rw [s.candidates_index, hentries]
      exact List.filter_congr fun other _ => decide_eq_decide.mpr UInt32.toNat_inj.symm
    rw [Index.nearest?, hcandidates] at hnearest
    exact .found (firstMatch_of_findSource? hfind) hpath
      (Index.closest?_eq_some (hascending.filter _) hnearest)

end Locate

end OriginMap
