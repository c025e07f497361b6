import OriginMap.Proofs.Meaning
import OriginMap.Proofs.Nearest

/-!
# The report of an index adds up

Every piece of a mapping text is counted once in the report of its index, whichever way it leaves reading
or filtering. The index has the entries that point at sources and names which exist, in the order of the
text, and under each source the positions of its entries. It is degraded unless every piece gave an entry
in the index or only moved the generated column.
-/

namespace OriginMap

namespace Mappings

/-- Every piece becomes what the totals of those before it tell, if each line has a word for its number. -/
theorem outcomes_eq_map {text : List Char} (h : (text.splitOn ';').length ≤ UInt32.size)
    (mode : Accumulation) :
    outcomes text mode = (placed text).zipIdx.map fun (p, i) =>
      p.outcome mode (accepted mode ((placed text).take i)) := by
  rw [outcomes_eq_outcomesFrom h]
  exact outcomesFrom_accepted mode [] (placed text)

/-- Every outcome is counted once. -/
theorem Decoded.total_ofOutcomes (all : List Outcome) :
    (ofOutcomes all).entries.length + (ofOutcomes all).skipped + (ofOutcomes all).unmapped =
      all.length := by
  induction all with
  | nil => rfl
  | cons outcome rest ih =>
    simp only [ofOutcomes] at ih ⊢
    cases outcome with
    | entry e =>
      rw [List.filterMap_cons_some (show Outcome.entry? (.entry e) = some e from rfl),
        List.count_cons_of_ne (by simp), List.count_cons_of_ne (by simp), List.length_cons,
        List.length_cons]
      omega
    | unmapped =>
      rw [List.filterMap_cons_none (show Outcome.unmapped.entry? = none from rfl),
        List.count_cons_of_ne (by decide), List.count_cons_self, List.length_cons]
      omega
    | skipped =>
      rw [List.filterMap_cons_none (show Outcome.skipped.entry? = none from rfl),
        List.count_cons_self, List.count_cons_of_ne (by decide), List.length_cons]
      omega

/-- The entries of outcomes are those that they give. -/
theorem Decoded.mem_entries_ofOutcomes {all : List Outcome} {e : Entry} :
    e ∈ (ofOutcomes all).entries ↔ .entry e ∈ all := by
  rw [ofOutcomes, List.mem_filterMap]
  constructor
  · rintro ⟨outcome, houtcome, he⟩
    cases outcome with
    | entry found => rwa [← Option.some.inj he]
    | unmapped => cases he
    | skipped => cases he
  · exact fun h => ⟨_, h, rfl⟩

end Mappings

/-- A report is not degraded if nothing was skipped and nothing invalid. -/
theorem Report.degraded_eq_false_iff {r : Report} : r.degraded = false ↔ r.skipped = 0 ∧ r.invalid = 0 := by
  simp [Report.degraded]

namespace Index

open Mappings

/-- An index accounts for some pieces, one outcome for each. -/
structure Accounts (index : Index) (outcomes : List Outcome) (sourceCount nameCount : ℕ) : Prop where
  /-- Each is counted once. -/
  total : index.report.entries + index.report.invalid + index.report.skipped + index.report.unmapped =
    outcomes.length
  /-- The entries that are counted are those of the index. -/
  counted : index.report.entries = index.entries.size
  /-- They point at sources that exist. -/
  pointed : ∀ e ∈ index.entries, e.sourceIndex.toNat < sourceCount
  /-- Their names exist. -/
  named : ∀ e ∈ index.entries, ∀ name ∈ e.nameIndex, name.toNat < nameCount
  /-- Their generated lines do not decrease. -/
  ascending : Ascending index.entries.toList
  /-- Under a source are the positions of the entries that point at it. -/
  filed : ∀ source position, position ∈ index.bySource.getD source #[] ↔
    ∃ e, index.entries[position]? = some e ∧ e.sourceIndex = source
  /-- They increase. -/
  increasing : ∀ source, (index.bySource.getD source #[]).toList.Pairwise (· < ·)
  /-- Nothing is degraded exactly if all have become entries of the index or moves of the column. -/
  degraded : index.report.degraded = false ↔
    ∀ outcome ∈ outcomes, outcome = .unmapped ∨ ∃ e ∈ index.entries, outcome = .entry e

variable (text : String) (mode : Accumulation) (sourceCount nameCount : ℕ)

/-- The entries of an index are the valid ones of its text. -/
theorem mem_entries_build {e : Entry} : e ∈ (build text mode sourceCount nameCount).entries ↔
    .entry e ∈ outcomes text.toList mode ∧ e.sourceIndex.toNat < sourceCount ∧
      ∀ name ∈ e.nameIndex, name.toNat < nameCount := by
  rw [build, List.mem_toArray, List.mem_filter, Entry.valid_iff, decode, Decoded.mem_entries_ofOutcomes]

/-- Under a source are the positions of its entries, in their order. -/
theorem toList_bySource_build (source : UInt32) :
    let index := build text mode sourceCount nameCount
    (index.bySource.getD source #[]).toList =
      (index.entries.toList.zipIdx.filter fun item => item.1.sourceIndex = source).map Prod.snd := by
  intro index
  have hbucket := toList_getD_file {}
    ((decode text mode).entries.filter (·.valid sourceCount nameCount)).zipIdx source
  rwa [Std.HashMap.getD_empty, List.nil_append] at hbucket

/-- An index is not degraded exactly if every piece gave an entry in it or only moved the column. -/
theorem degraded_build :
    let index := build text mode sourceCount nameCount
    index.report.degraded = false ↔ ∀ outcome ∈ outcomes text.toList mode,
      outcome = .unmapped ∨ ∃ e ∈ index.entries, outcome = .entry e := by
  intro index
  let all := outcomes text.toList mode
  have hskipped : index.report.skipped = 0 ↔ .skipped ∉ all := List.count_eq_zero
  have hinvalid : index.report.invalid = 0 ↔
      ∀ e ∈ (decode text mode).entries, e.valid sourceCount nameCount = true := by
    rw [← List.length_filter_eq_length_iff]
    have hle := List.length_filter_le (·.valid sourceCount nameCount) (decode text mode).entries
    show (decode text mode).entries.length - _ = 0 ↔ _
    omega
  rw [Report.degraded_eq_false_iff, hskipped, hinvalid]
  constructor
  · rintro ⟨hnone, hvalid⟩ outcome houtcome
    cases outcome with
    | entry e =>
      have he := Entry.valid_iff.mp (hvalid e (Decoded.mem_entries_ofOutcomes.mpr houtcome))
      exact Or.inr ⟨e, (mem_entries_build ..).mpr ⟨houtcome, he⟩, rfl⟩
    | unmapped => exact Or.inl rfl
    | skipped => exact absurd houtcome hnone
  · intro hused
    refine ⟨fun hskip => ?_, fun e he => ?_⟩
    · rcases hused _ hskip with h | ⟨e, -, h⟩
      · cases h
      · cases h
    · rcases hused _ (Decoded.mem_entries_ofOutcomes.mp he) with h | ⟨found, hfound, h⟩
      · cases h
      · obtain rfl := Outcome.entry.inj h
        exact Entry.valid_iff.mpr ((mem_entries_build ..).mp hfound).2

/-- An index accounts for the outcomes of its text. -/
theorem accounts_build :
    (build text mode sourceCount nameCount).Accounts (outcomes text.toList mode) sourceCount nameCount where
  total := by
    have htotal := Decoded.total_ofOutcomes (outcomes text.toList mode)
    have hle := List.length_filter_le (·.valid sourceCount nameCount) (decode text mode).entries
    simp only [build, decode] at hle ⊢
    omega
  counted := List.size_toArray.symm
  pointed e he := ((mem_entries_build ..).mp he).2.1
  named e he := ((mem_entries_build ..).mp he).2.2
  ascending := (ascending_decode text mode).sublist List.filter_sublist
  filed source position := by
    rw [← Array.mem_toList_iff, toList_bySource_build, List.mem_map]
    constructor
    · rintro ⟨⟨e, _⟩, hitem, rfl⟩
      obtain ⟨hmem, hsource⟩ := List.mem_filter.mp hitem
      exact ⟨e, by simpa using List.mem_zipIdx_iff_getElem?.mp hmem, of_decide_eq_true hsource⟩
    · rintro ⟨e, he, hsource⟩
      refine ⟨(e, position), List.mem_filter.mpr ⟨?_, decide_eq_true hsource⟩, rfl⟩
      exact List.mem_zipIdx_iff_getElem?.mpr (by simpa using he)
  increasing source := by
    rw [toList_bySource_build]
    refine List.Pairwise.sublist (List.filter_sublist.map Prod.snd) ?_
    rw [List.zipIdx_map_snd]
    exact List.pairwise_lt_range'
  degraded := degraded_build text mode sourceCount nameCount

/-- Nothing of a mapping text is lost or counted twice. The pieces between its separators become, one by one,
what the totals of those before them tell, and the index accounts for what they became. -/
theorem build_accounts_for_pieces (hlines : (text.toList.splitOn ';').length ≤ UInt32.size) :
    let placed := placed text.toList
    let outcomes := placed.zipIdx.map fun (p, i) => p.outcome mode (accepted mode (placed.take i))
    placed.map Piece.values = (textPieces text.toList).map Delta.decode ∧
      outcomes.length = (textPieces text.toList).length ∧
        (build text mode sourceCount nameCount).Accounts outcomes sourceCount nameCount := by
  intro placed outcomes
  have hvalues := values_placed text.toList
  refine ⟨hvalues, ?_, ?_⟩
  · have hlength := congrArg List.length hvalues
    rw [List.length_map, List.length_map] at hlength
    rw [List.length_map, List.length_zipIdx, hlength]
  · have hread : Mappings.outcomes text.toList mode = outcomes := outcomes_eq_map hlines mode
    exact hread ▸ accounts_build text mode sourceCount nameCount

/-- Of an entry, one whose source does not exist, a move of the column and a piece that cannot be read, the
last two are counted besides the entries. -/
theorem build_accounts_for_pieces_of_each_kind :
    let text := "AAAA,,ACAA;A,!"
    let index := build text .crossLine 1 0
    (text.toList.splitOn ';').length ≤ UInt32.size ∧ index.report.entries = 1 ∧
      index.report.invalid = 1 ∧ index.report.skipped + index.report.unmapped = 2 ∧
        ∃ outcomes : List Outcome, outcomes.length = 4 ∧ index.Accounts outcomes 1 0 := by
  intro text index
  have hlines : (text.toList.splitOn ';').length ≤ UInt32.size := by decide +kernel
  have hpieces : (textPieces text.toList).length = 4 := by decide +kernel
  have hentries : index.report.entries = 1 := by decide +kernel
  have hinvalid : index.report.invalid = 1 := by decide +kernel
  obtain ⟨-, hlength, haccounts⟩ := build_accounts_for_pieces text .crossLine 1 0 hlines
  have htotal : index.report.entries + index.report.invalid + index.report.skipped +
      index.report.unmapped = 4 := haccounts.total.trans (hlength.trans hpieces)
  exact ⟨hlines, hentries, hinvalid, by omega, _, hlength.trans hpieces, haccounts⟩

end Index

end OriginMap
