import OriginMap.Artifact
import OriginMap.Proofs.Index
import OriginMap.Proofs.Mappings

/-!
# A look-up is a full scan

Whatever text is read, the lines of its entries do not decrease: a line gives entries of its own number
only, and numbers of lines increase. Passing over entries and choosing those of one source leave it so.
A look-up in an index, which stops early, therefore finds what a scan of all entries finds: among those
that point into the artifact and are of the source asked for, the first of the nearest.
-/

namespace OriginMap

namespace Mappings

/-! ## Lines do not decrease -/

/-- What became of a piece has its entry, if any, on the line. -/
def Outcome.OnLine (line : UInt32) (outcome : Outcome) : Prop :=
  ∀ e, outcome = .entry e → e.generatedLine = line

/-- An entry at a position is on the line it is asked for. -/
theorem Position.generatedLine_of_entry? {p : Position} {line : UInt32} {named : Bool} {e : Entry}
    (h : p.entry? line named = some e) : e.generatedLine = line := by
  cases named with
  | false =>
    simp only [Position.entry?, Bool.false_eq_true, if_false, Option.bind_eq_bind, Option.bind_some,
      Option.bind_eq_some_iff, Option.pure_def, Option.some.injEq] at h
    obtain ⟨_, -, _, -, _, -, _, -, rfl⟩ := h
    rfl
  | true =>
    simp only [Position.entry?, if_true, Option.bind_eq_bind, Option.bind_eq_some_iff, Option.pure_def,
      Option.some.injEq] at h
    obtain ⟨_, -, _, -, _, -, _, -, _, -, rfl⟩ := h
    rfl

/-- Differences that are applied on a line give an entry of that line or none. -/
theorem Position.map_onLine (p : Position) (atLine : UInt32) (generated source line column : ℤ)
    (name : Option ℤ) : (p.map atLine generated source line column name).1.OnLine atLine := by
  intro e he
  unfold Position.map at he
  cases hadvance : p.advance generated source line column name with
  | none => simp [hadvance] at he
  | some next =>
    cases hentry : next.entry? atLine name.isSome with
    | none => simp [hadvance, hentry] at he
    | some found =>
      simp only [hadvance, hentry, Outcome.entry.injEq] at he
      rw [← he]
      exact Position.generatedLine_of_entry? hentry

/-- A piece of a line gives an entry of that line or none. -/
theorem readPiece_onLine (atLine : UInt32) (piece : List Char) (p : Position) :
    ((readPiece atLine piece).run p).1.OnLine atLine := by
  show (readPiece atLine piece p).1.OnLine atLine
  unfold readPiece
  split
  · split
    · intro e he
      cases he
    · intro e he
      cases he
  · exact p.map_onLine _ _ _ _ _ _
  · exact p.map_onLine _ _ _ _ _ _
  · intro e he
    cases he

/-- Pieces of a line give entries of that line only. -/
theorem mapM_readPiece_onLine (atLine : UInt32) (texts : List (List Char)) (p : Position) :
    ∀ outcome ∈ ((texts.mapM (readPiece atLine)).run p).1, outcome.OnLine atLine := by
  induction texts generalizing p with
  | nil =>
    intro outcome houtcome
    cases houtcome
  | cons piece texts ih =>
    intro outcome houtcome
    rw [List.mapM_cons, StateT.run_bind] at houtcome
    rcases List.mem_cons.mp houtcome with rfl | houtcome
    · exact readPiece_onLine atLine piece p
    · exact ih _ outcome houtcome

/-- The entries of a line are of the word that its number is. -/
theorem generatedLine_of_readLine (mode : Accumulation) (line : List Char × ℕ) (running : Running) :
    ∀ e ∈ ((readLine mode line).run running).1.filterMap Outcome.entry?,
      e.generatedLine = UInt32.ofNat line.2 := by
  intro e he
  obtain ⟨outcome, houtcome, hentry⟩ := List.mem_filterMap.mp he
  rw [run_readLine] at houtcome
  have honLine := mapM_readPiece_onLine _ _ _ outcome houtcome
  cases outcome with
  | entry found =>
    rw [← Option.some.inj hentry]
    exact honLine found rfl
  | unmapped => cases hentry
  | skipped => cases hentry

/-- Entries of several lines are of words that numbers of the lines are. -/
theorem generatedLine_of_readLines (mode : Accumulation) (lines : List (List Char × ℕ))
    (running : Running) :
    ∀ e ∈ ((lines.mapM (readLine mode)).run running).1.flatten.filterMap Outcome.entry?,
      ∃ line ∈ lines, e.generatedLine = UInt32.ofNat line.2 := by
  induction lines generalizing running with
  | nil =>
    intro e he
    cases he
  | cons line lines ih =>
    intro e he
    rw [List.mapM_cons, StateT.run_bind] at he
    change e ∈ List.filterMap Outcome.entry? (_ ++ _) at he
    rw [List.filterMap_append] at he
    rcases List.mem_append.mp he with he | he
    · exact ⟨line, List.mem_cons_self, generatedLine_of_readLine mode line running e he⟩
    · obtain ⟨other, hother, hline⟩ := ih _ e he
      exact ⟨other, List.mem_cons_of_mem line hother, hline⟩

/-- Lines whose numbers increase and fit a word give entries whose lines do not decrease. -/
theorem ascending_readLines (mode : Accumulation) {lines : List (List Char × ℕ)}
    (hincreasing : lines.Pairwise fun a b => a.2 < b.2)
    (hfits : ∀ line ∈ lines, line.2 < UInt32.size) (running : Running) :
    Ascending (((lines.mapM (readLine mode)).run running).1.flatten.filterMap Outcome.entry?) := by
  induction lines generalizing running with
  | nil => exact List.Pairwise.nil
  | cons line lines ih =>
    obtain ⟨hlater, hrest⟩ := List.pairwise_cons.mp hincreasing
    have hword (number : List Char × ℕ) (hnumber : number ∈ line :: lines) :
        (UInt32.ofNat number.2).toNat = number.2 :=
      UInt32.toNat_ofNat_of_lt' (hfits number hnumber)
    rw [List.mapM_cons, StateT.run_bind]
    show Ascending (List.filterMap Outcome.entry? (_ ++ _))
    rw [List.filterMap_append]
    refine List.pairwise_append.mpr ⟨?_, ih hrest (fun other hother => ?_) _, ?_⟩
    · refine List.pairwise_of_forall_mem_list fun a ha b hb => ?_
      rw [generatedLine_of_readLine mode line running a ha,
        generatedLine_of_readLine mode line running b hb]
      exact UInt32.le_refl _
    · exact hfits other (List.mem_cons_of_mem line hother)
    · intro a ha b hb
      obtain ⟨other, hother, hb⟩ := generatedLine_of_readLines mode lines _ b hb
      rw [generatedLine_of_readLine mode line running a ha, hb, UInt32.le_iff_toNat_le,
        hword line List.mem_cons_self, hword other (List.mem_cons_of_mem line hother)]
      exact Nat.le_of_lt (hlater other hother)

/-- The lines of the entries that a text gives do not decrease. -/
theorem ascending_decode (text : String) (mode : Accumulation) :
    Ascending (decode text mode).entries := by
  refine ascending_readLines mode ?_ (fun line hline => ?_) .zero
  · exact List.pairwise_map.mp (by
      rw [numberedLines, List.zipIdx_map_snd]
      exact List.pairwise_lt_range')
  · have hcount := List.snd_lt_of_mem_zipIdx hline
    have htaken := List.length_take_le UInt32.size (text.toList.splitOn ';')
    omega

end Mappings

/-! ## Looking up -/

/-- An entry points into an artifact: at one of its sources, which is the source asked for if one is, and
at one of its names if at any. -/
structure Entry.PointsInto (e : Entry) (artifact : Artifact) (source : Option UInt32) : Prop where
  /-- The source exists. -/
  pointed : e.sourceIndex.toNat < artifact.sources.length
  /-- The name exists. -/
  named : ∀ name ∈ e.nameIndex, name.toNat < artifact.names.length
  /-- The source is the one asked for. -/
  asked : ∀ asked ∈ source, e.sourceIndex = asked

/-- An entry points into an artifact if it is valid there and of the source asked for. -/
theorem Entry.pointsInto_iff {e : Entry} {artifact : Artifact} {source : Option UInt32} :
    e.PointsInto artifact source ↔
      e.valid artifact.sources.length artifact.names.length = true ∧
        source.all (e.sourceIndex = ·) = true := by
  rw [Entry.valid_iff]
  constructor
  · rintro ⟨hsource, hname, hasked⟩
    refine ⟨⟨hsource, hname⟩, ?_⟩
    cases source with
    | none => rfl
    | some asked => simpa using hasked asked rfl
  · rintro ⟨⟨hsource, hname⟩, hasked⟩
    refine ⟨hsource, hname, fun asked hsome => ?_⟩
    rw [hsome] at hasked
    simpa using hasked

/-- Whether an entry points into an artifact can be told. -/
instance (e : Entry) (artifact : Artifact) (source : Option UInt32) :
    Decidable (e.PointsInto artifact source) :=
  decidable_of_iff _ Entry.pointsInto_iff.symm

namespace Index

/-- A look-up in the index of an artifact considers the entries of its text that point into the artifact
and are of the source asked for, in the order of the text. -/
theorem candidates_build_artifact (artifact : Artifact) (mode : Accumulation)
    (source : Option UInt32) :
    (build artifact.mappings mode artifact.sources.length artifact.names.length).candidates source =
      (Mappings.decode artifact.mappings mode).entries.filter (·.PointsInto artifact source) := by
  cases source with
  | none =>
    rw [candidates, build]
    refine List.filter_congr fun e _ => ?_
    rw [Bool.eq_iff_iff, decide_eq_true_eq, Entry.pointsInto_iff]
    simp
  | some source =>
    rw [candidates_build, List.filter_filter]
    refine List.filter_congr fun e _ => ?_
    rw [Bool.eq_iff_iff, decide_eq_true_eq, Entry.pointsInto_iff, Bool.and_eq_true, and_comm]
    rfl

/-- Whatever the text and the mode, a look-up finds the entry that a scan of all entries finds: among those
that point into the artifact and are of the source asked for, if one is, the first in the order of the
text of the nearest to the position. It finds none only where there is none of them. -/
theorem nearest?_eq_scan (artifact : Artifact) (mode : Accumulation) (line column : UInt32)
    (source : Option UInt32) :
    let index := build artifact.mappings mode artifact.sources.length artifact.names.length
    let scanned := (Mappings.decode artifact.mappings mode).entries.filter
      (·.PointsInto artifact source)
    (∀ e, index.nearest? line column source = some e ↔ FirstNearest line column scanned e) ∧
      (index.nearest? line column source = none ↔ scanned = []) := by
  intro index scanned
  have hlooked : index.nearest? line column source = closest? line column scanned := by
    rw [nearest?, candidates_build_artifact]
  have hascending : Ascending scanned :=
    (Mappings.ascending_decode artifact.mappings mode).sublist List.filter_sublist
  rw [hlooked]
  refine ⟨fun e => ⟨closest?_eq_some hascending, fun hnearest => ?_⟩, closest?_eq_none⟩
  cases hfound : closest? line column scanned with
  | none =>
    have hmem := hnearest.mem
    rw [closest?_eq_none.mp hfound] at hmem
    cases hmem
  | some found => rw [(closest?_eq_some hascending hfound).unique hnearest]

end Index

end OriginMap
