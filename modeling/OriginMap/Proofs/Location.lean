import OriginMap.Proofs.Context
import OriginMap.Proofs.Disk
import OriginMap.Proofs.Nearest
import OriginMap.Proofs.SourceName
import OriginMap.Resolve

/-!
# Where a position is located

One artifact has four ways to answer for a position, and the two resolvers of a store and its look-up of a
source's text take the same one. An index keeps only entries that point into the artifact. Therefore the
source of an entry that is found exists, and so does its name.
-/

namespace OriginMap

open Files

/-! ## The index of a copy -/

namespace Snapshot

variable {s : Snapshot} {line column : UInt32} {source : UInt32} {e : Entry}

/-- The index of a copy has the entries of its text that point into its artifact. -/
theorem mem_index : e ∈ s.index.entries ↔
    e ∈ (Mappings.decode s.artifact.mappings s.accumulation).entries ∧
      e.PointsInto s.artifact none := by
  rw [Entry.pointsInto_iff, index, Index.build, List.mem_toArray, List.mem_filter]
  simp

/-- A look-up for a source considers the entries of the index that are of the source. -/
theorem candidates_index (s : Snapshot) (source : UInt32) : s.index.candidates (some source) =
    s.index.entries.toList.filter (·.sourceIndex = source) :=
  Index.candidates_build _ _ _ _ _

/-- An entry that is found for a source is in the index and of the source. -/
theorem mem_index_of_nearest? (h : s.index.nearest? line column (some source) = some e) :
    e ∈ s.index.entries ∧ e.sourceIndex = source := by
  have hascending : Ascending (s.index.candidates (some source)) := by
    rw [index, Index.candidates_build_artifact]
    exact (Mappings.ascending_decode _ _).sublist List.filter_sublist
  have hmem := (Index.closest?_eq_some hascending h).mem
  rw [candidates_index, List.mem_filter, Array.mem_toList_iff, decide_eq_true_eq] at hmem
  exact hmem

/-- None is found for a source exactly if the index has no entry of it. -/
theorem nearest?_eq_none : s.index.nearest? line column (some source) = none ↔
    ∀ e ∈ s.index.entries, e.sourceIndex ≠ source := by
  rw [Index.nearest?, Index.closest?_eq_none, candidates_index, List.filter_eq_nil_iff]
  simp

end Snapshot

/-! ## One artifact -/

/-- The answers of one artifact to where a position of a file is. -/
inductive Located (s : Snapshot) (file : String) (line column : UInt32) : Except Miss Hit → Prop
  /-- The file matches no source. -/
  | unmatched (hfind : findSource? s.artifact.sources file = none) :
      Located s file line column (.error .unknownSource)
  /-- The file matches a source that has no 32-bit number. -/
  | unnumbered {source : ℕ} (hfind : findSource? s.artifact.sources file = some source)
      (hlate : UInt32.size ≤ source) : Located s file line column (.error .unknownSource)
  /-- The index has no entry of the source. -/
  | unmapped {source : ℕ} (hfind : findSource? s.artifact.sources file = some source)
      (hsource : source < UInt32.size) (hnone : ∀ e ∈ s.index.entries, e.sourceIndex.toNat ≠ source) :
      Located s file line column (.error .noMapping)
  /-- An entry of the source is nearest. The source exists, and so does the name of the entry, if it has
  one. -/
  | found {e : Entry} {path : String}
      (hfind : findSource? s.artifact.sources file = some e.sourceIndex.toNat)
      (hnearest : s.index.nearest? line column (some e.sourceIndex) = some e)
      (hpath : s.artifact.sources[e.sourceIndex.toNat]? = some path)
      (hnamed : ∀ n ∈ e.nameIndex, n.toNat < s.artifact.names.length) :
      Located s file line column (.ok {
        location := {
          sourcePath := path
          line := e.sourceLine
          column := e.sourceColumn
          name := e.nameIndex.bind fun n => s.artifact.names[n.toNat]? }
        sourceIndex := e.sourceIndex.toNat })

/-- Every answer of an artifact is one of these. -/
theorem located_locate (s : Snapshot) (file : String) (line column : UInt32) :
    Located s file line column (s.locate file line column) := by
  unfold Snapshot.locate
  cases hfind : findSource? s.artifact.sources file with
  | none => exact .unmatched hfind
  | some source =>
    rw [Option.filter_some]
    by_cases hsource : source < UInt32.size
    · have hword : (UInt32.ofNat source).toNat = source := UInt32.toNat_ofNat_of_lt' hsource
      simp only [hsource, decide_true, if_true]
      cases hnearest : s.index.nearest? line column (some (UInt32.ofNat source)) with
      | none =>
        refine .unmapped hfind hsource fun e he hsame => ?_
        exact Snapshot.nearest?_eq_none.mp hnearest e he (UInt32.toNat_inj.mp (hsame.trans hword.symm))
      | some e =>
        obtain ⟨he, hof⟩ := Snapshot.mem_index_of_nearest? hnearest
        have hpoints := (Snapshot.mem_index.mp he).2
        rw [← hof] at hword hnearest
        simp only [List.getElem?_eq_getElem hpoints.pointed]
        exact .found (hword ▸ hfind) hnearest (List.getElem?_eq_getElem hpoints.pointed) hpoints.named
    · simp only [hsource, decide_false]
      exact .unnumbered hfind (Nat.le_of_not_lt hsource)

section Answers

variable {s : Snapshot} {file : String} {line column : UInt32} {answer : Except Miss Hit}

/-- An artifact does not miss for want of an artifact. -/
theorem Located.ne_noArtifact (h : Located s file line column answer) :
    answer ≠ .error .noArtifact := by
  cases h <;> simp

/-- A source is not known exactly if the file matches none, or none with a 32-bit number. -/
theorem Located.unknownSource_iff (h : Located s file line column answer) :
    answer = .error .unknownSource ↔ findSource? s.artifact.sources file = none ∨
      ∃ source, findSource? s.artifact.sources file = some source ∧ UInt32.size ≤ source := by
  cases h with
  | unmatched hfind => simp [hfind]
  | unnumbered hfind hlate => simp [hfind, hlate]
  | unmapped hfind hsource => simp [hfind, hsource]
  | @found e _ hfind => simp [hfind, e.sourceIndex.toNat_lt_size]

/-- An entry is not known exactly if the index has none of the matched source. -/
theorem Located.noMapping_iff (h : Located s file line column answer) :
    answer = .error .noMapping ↔ ∃ source, findSource? s.artifact.sources file = some source ∧
      source < UInt32.size ∧ ∀ e ∈ s.index.entries, e.sourceIndex.toNat ≠ source := by
  cases h with
  | unmatched hfind => simp [hfind]
  | unnumbered hfind hlate => simp [hfind, Nat.not_lt.mpr hlate]
  | unmapped hfind hsource hnone => simpa [hfind, hsource] using hnone
  | found hfind hnearest =>
    have he := (Snapshot.mem_index_of_nearest? hnearest).1
    simp only [reduceCtorEq, hfind, Option.some.injEq, false_iff, not_exists, not_and]
    rintro _ rfl _ hnone
    exact hnone _ he rfl

end Answers

/-! ## Lines around a hit -/

/-- A frame shows an entry of an artifact, and the lines around it in the text of its source. -/
structure ResolvedFrame.Shows (frame : ResolvedFrame) (artifact : Artifact) (e : Entry)
    (content : Option String) (count : UInt64) : Prop where
  /-- The path is that of the entry's source. -/
  path : artifact.sources[e.sourceIndex.toNat]? = some frame.location.sourcePath
  /-- The line is that of the entry. -/
  line : frame.location.line = e.sourceLine
  /-- So is the column. -/
  column : frame.location.column = e.sourceColumn
  /-- There is a name exactly if the entry has one. -/
  named : frame.location.name.isSome ↔ e.nameIndex.isSome
  /-- It is the one that the entry points at. -/
  name : ∀ n ∈ e.nameIndex, artifact.names[n.toNat]? = frame.location.name
  /-- There are lines exactly if there is a text that has more lines than come before the entry's. -/
  captured : frame.context.isSome ↔
    ∃ text, content = some text ∧ frame.location.line.toNat < (Text.lines text.toList).length
  /-- They are those of the text. -/
  context : ∀ text ∈ content,
    frame.context = Context.extract? text frame.location.line.toUInt64 count

/-- A hit with the lines around it shows an entry of the matched source. -/
theorem Located.exists_shows {s : Snapshot} {file : String} {line column : UInt32} {hit : Hit}
    (h : Located s file line column (.ok hit)) (count : UInt64) :
    ∃ e, findSource? s.artifact.sources file = some e.sourceIndex.toNat ∧
      s.index.nearest? line column (some e.sourceIndex) = some e ∧
      (⟨hit.location, s.contextAt hit count⟩ : ResolvedFrame).Shows s.artifact e
        ((findSource? s.artifact.sources file).bind s.artifact.sourceContent?) count := by
  cases h with
  | @found e path hfind hnearest hpath hnamed =>
    refine ⟨e, hfind, hnearest, hpath, rfl, rfl, ?_, ?_, ?_, ?_⟩
    · cases hname : e.nameIndex with
      | none => simp
      | some n => simp [hnamed n hname]
    · intro n hn
      simp [Option.mem_def.mp hn]
    · rw [hfind, Option.bind_some, Snapshot.contextAt]
      cases s.artifact.sourceContent? e.sourceIndex.toNat with
      | none => simp
      | some text => simp [Context.isSome_extract?]
    · intro text htext
      rw [hfind, Option.bind_some, Option.mem_def] at htext
      rw [Snapshot.contextAt, htext]
      rfl

/-! ## The resolvers of a store -/

namespace Store

open Disk

variable (store : Store) (tree : Tree) (application version file : String) (line column : UInt32)

/-- A miss stays what it is, whatever is made of a hit. -/
theorem map_eq_error_iff {α β : Type} {answer : Except Miss α} {view : α → β} {miss : Miss} :
    answer.map view = .error miss ↔ answer = .error miss := by
  cases answer <;> simp [Except.map]

/-- What is made of a hit is made of a hit in the artifact that is had, if any is. -/
theorem map_run_locate {α : Type} (view : Snapshot × Hit → α) :
    ((store.locate application version file line column).run tree).1.1.map view =
      ((store.get application version).run tree).1.1.elim (.error .noArtifact) fun s =>
        (s.locate file line column).map fun hit => view (s, hit) := by
  rw [Store.locate, Script.run_bind]
  rcases (store.get application version).run tree with ⟨⟨_ | s, after⟩, changed⟩
  · rfl
  · show ((s.locate file line column).map fun hit => (s, hit)).map view = _
    cases hlocate : s.locate file line column <;> simp [hlocate, Except.map]

/-- One resolver answers the place of a hit in the artifact. -/
theorem fst_run_resolve : ((store.resolve application version file line column).run tree).1.1 =
    ((store.get application version).run tree).1.1.elim (.error .noArtifact) fun s =>
      (s.locate file line column).map Hit.location := by
  rw [Store.resolve, Script.run_bind]
  exact store.map_run_locate tree application version file line column fun item => item.2.location

/-- The other answers it with the lines around it. -/
theorem fst_run_resolveWithContext (count : UInt64) :
    ((store.resolveWithContext application version file line column count).run tree).1.1 =
      ((store.get application version).run tree).1.1.elim (.error .noArtifact) fun s =>
        (s.locate file line column).map fun hit => ⟨hit.location, s.contextAt hit count⟩ := by
  rw [Store.resolveWithContext, Script.run_bind]
  exact store.map_run_locate tree application version file line column fun item =>
    (⟨item.2.location, item.1.contextAt item.2 count⟩ : ResolvedFrame)

/-- The text of a source is that of the artifact that is had. -/
theorem fst_run_sourceContent :
    ((store.sourceContent application version file).run tree).1.1 =
      ((store.get application version).run tree).1.1.bind fun s =>
        (findSource? s.artifact.sources file).bind s.artifact.sourceContent? := by
  rw [Store.sourceContent, Script.run_bind]
  rfl

/-- Both resolvers answer the same, on every store and tree: the same miss, or the same location. They
miss for want of an artifact exactly where none is had, for want of a source exactly where the file matches
none, or none with a 32-bit number, and for want of an entry exactly where the index has no entry of the
matched source. Otherwise the frame shows the nearest entry of the matched source, and lines of the text
that the store has for the file. -/
theorem resolvers_agree (store : Store) (tree : Tree) (application version file : String)
    (line column : UInt32) (count : UInt64) :
    let found := ((store.get application version).run tree).1.1
    let content := ((store.sourceContent application version file).run tree).1.1
    let plain := ((store.resolve application version file line column).run tree).1.1
    let framed :=
      ((store.resolveWithContext application version file line column count).run tree).1.1
    framed.map ResolvedFrame.location = plain ∧
      (plain = .error .noArtifact ↔ found = none) ∧
      ∀ s, found = some s →
        (plain = .error .unknownSource ↔ findSource? s.artifact.sources file = none ∨
          ∃ source, findSource? s.artifact.sources file = some source ∧ UInt32.size ≤ source) ∧
        (plain = .error .noMapping ↔ ∃ source, findSource? s.artifact.sources file = some source ∧
          source < UInt32.size ∧ ∀ e ∈ s.index.entries, e.sourceIndex.toNat ≠ source) ∧
        ∀ frame, framed = .ok frame → ∃ e,
          findSource? s.artifact.sources file = some e.sourceIndex.toNat ∧
            s.index.nearest? line column (some e.sourceIndex) = some e ∧
              frame.Shows s.artifact e content count := by
  intro found content plain framed
  have hplain : plain = found.elim _ _ :=
    store.fst_run_resolve tree application version file line column
  have hframed : framed = found.elim _ _ :=
    store.fst_run_resolveWithContext tree application version file line column count
  have hcontent : content = found.bind _ :=
    store.fst_run_sourceContent tree application version file
  rw [hplain, hframed, hcontent]
  clear_value found
  cases found with
  | none => exact ⟨rfl, by simp, fun s hs => by cases hs⟩
  | some s =>
    have hlocated := located_locate s file line column
    simp only [Option.elim_some, Option.bind_some, Option.some.injEq, forall_eq', map_eq_error_iff]
    generalize s.locate file line column = answer at hlocated
    refine ⟨?_, ?_, hlocated.unknownSource_iff, hlocated.noMapping_iff, fun frame hframe => ?_⟩
    · cases answer <;> rfl
    · simp [hlocated.ne_noArtifact]
    · cases answer with
      | error miss => cases hframe
      | ok hit =>
        obtain rfl := Except.ok.inj hframe
        exact hlocated.exists_shows count

/-- The name of the entry and the lines around it are those of the captured text. -/
theorem resolvers_agree_on_captured :
    let text := "import b\nlet c\nthrow c"
    let snapshot : Snapshot := {
      serial := 0
      artifact := {
        key := ⟨"shop", "1.0"⟩, file := none, sources := ["src/a.ts"], sourcesContent := [some text],
        names := ["render"], mappings := "UAEGA", storedAt := ⟨0, 0⟩, sizeBytes := 0, sha256 := "" }
      accumulation := .crossLine }
    let store : Store := ⟨bareDisk, .crossLine, [(⟨"shop", "1.0"⟩, snapshot)], {}⟩
    let frame : ResolvedFrame :=
      ⟨⟨"src/a.ts", 2, 3, some "render"⟩, some ⟨["let c"], "throw c", []⟩⟩
    ((store.get "shop" "1.0").run bareTree).1.1 = some snapshot ∧
      ((store.resolveWithContext "shop" "1.0" "dist/a.ts" 0 12 1).run bareTree).1.1 = .ok frame ∧
        ∃ e, findSource? ["src/a.ts"] "dist/a.ts" = some e.sourceIndex.toNat ∧
          snapshot.index.nearest? 0 12 (some e.sourceIndex) = some e ∧
            frame.Shows snapshot.artifact e (some text) 1 := by
  intro text snapshot store frame
  have hfound : ((store.get "shop" "1.0").run bareTree).1.1 = some snapshot := by decide
  have hframe : ((store.resolveWithContext "shop" "1.0" "dist/a.ts" 0 12 1).run bareTree).1.1 =
      .ok frame := by decide +kernel
  obtain ⟨-, -, hanswers⟩ := store.resolvers_agree bareTree "shop" "1.0" "dist/a.ts" 0 12 1
  obtain ⟨-, -, hframes⟩ := hanswers snapshot hfound
  have hcontent : ((store.sourceContent "shop" "1.0" "dist/a.ts").run bareTree).1.1 = some text := by
    decide
  obtain ⟨e, hfind, hnearest, hshows⟩ := hframes frame hframe
  exact ⟨hfound, hframe, e, hfind, hnearest, hcontent ▸ hshows⟩

/-- A source behind all 32-bit numbers is found, and the index has no entry of it. All the same the miss is for
want of a source. -/
theorem unknown_behind_all_numbers :
    let snapshot : Snapshot := {
      serial := 0
      artifact := {
        key := ⟨"shop", "1.0"⟩, file := none, sources := behindAllNumbers "b.ts" "a.ts"
        sourcesContent := [], names := [], mappings := "", storedAt := ⟨0, 0⟩, sizeBytes := 0
        sha256 := "" }
      accumulation := .crossLine }
    let store : Store := ⟨bareDisk, .crossLine, [(⟨"shop", "1.0"⟩, snapshot)], {}⟩
    ((store.get "shop" "1.0").run bareTree).1.1 = some snapshot ∧
      findSource? snapshot.artifact.sources "a.ts" = some UInt32.size ∧
      (∀ e ∈ snapshot.index.entries, e.sourceIndex.toNat ≠ UInt32.size) ∧
      ((store.resolve "shop" "1.0" "a.ts" 0 0).run bareTree).1.1 = .error .unknownSource := by
  intro snapshot store
  have hfind : findSource? snapshot.artifact.sources "a.ts" = some UInt32.size :=
    findSource?_behindAllNumbers (by decide) (by decide)
  have hfound : ((store.get "shop" "1.0").run bareTree).1.1 = some snapshot := by
    have hmake : Key.make "shop" "1.0" = .ok ⟨"shop", "1.0"⟩ := by decide
    rw [Store.get, hmake]
    rfl
  have hmiss : snapshot.locate "a.ts" 0 0 = .error .unknownSource :=
    (located_locate snapshot "a.ts" 0 0).unknownSource_iff.mpr (.inr ⟨_, hfind, le_rfl⟩)
  refine ⟨hfound, hfind, fun e _ => e.sourceIndex.toNat_lt_size.ne, ?_⟩
  rw [fst_run_resolve, hfound, Option.elim_some, hmiss]
  rfl

end Store

end OriginMap
