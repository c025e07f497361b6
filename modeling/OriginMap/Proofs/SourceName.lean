import Mathlib.Data.List.Forall2
import Mathlib.Data.List.TakeWhile
import Mathlib.Data.Nat.Notation
import OriginMap.SourceName

/-!
# Sources are matched by what is left of them

A path consists of directories, a base name, and a query string or fragment, and it does so in one way.
More directories in front of it and more decoration behind it leave its base name as it is. A hint matches
the first source with its base name, so what decorates the hint and the sources makes no difference.
-/

namespace OriginMap

/-! ## Base names -/

/-- A path consists of directories, a name without directories, and a decoration. -/
structure Parted (path directories name decoration : List Char) : Prop where
  /-- These are its parts. -/
  whole : path = directories ++ name ++ decoration
  /-- No query string and no fragment starts before the decoration. -/
  plain : ∀ c ∈ directories ++ name, startsDecoration c = false
  /-- The directories, if there are any, are ended. -/
  ended : ∀ c ∈ directories.getLast?, endsDirectory c = true
  /-- In the name no directory is ended. -/
  named : ∀ c ∈ name, endsDirectory c = false
  /-- The decoration, if there is any, is started. -/
  started : ∀ c ∈ decoration.head?, startsDecoration c = true

/-- A path starts with the characters up to the first one of some kind. -/
theorem takeWhile_append_of_head? {kind : Char → Bool} {front back : List Char}
    (hfront : ∀ c ∈ front, kind c = false) (hback : ∀ c ∈ back.head?, kind c = true) :
    (front ++ back).takeWhile (!kind ·) = front := by
  rw [List.takeWhile_append_of_pos fun c hc => by rw [hfront c hc]; rfl]
  cases back with
  | nil => exact List.append_nil front
  | cons c rest => rw [List.takeWhile_cons_of_neg (by simp [hback c rfl]), List.append_nil]

/-- What is left from the first character of some kind on starts with one. -/
theorem head?_dropWhile_kind {kind : Char → Bool} (path : List Char) :
    ∀ c ∈ (path.dropWhile (!kind ·)).head?, kind c = true := by
  intro c hc
  have hstop := List.head?_dropWhile_not (!kind ·) path
  rw [Option.mem_def.mp hc] at hstop
  simpa using hstop

/-- The base name of a path is the name that it consists of. -/
theorem Parted.baseName_eq {path directories name decoration : List Char}
    (h : Parted path directories name decoration) : baseName path = name := by
  have hplain : path.takeWhile (!startsDecoration ·) = directories ++ name := by
    rw [h.whole, takeWhile_append_of_head? h.plain h.started]
  rw [baseName, hplain, List.reverse_append, takeWhile_append_of_head?, List.reverse_reverse]
  · exact fun c hc => h.named c (List.mem_reverse.mp hc)
  · rw [List.head?_reverse]
    exact h.ended

/-- Every path consists of directories, its base name and a decoration. -/
theorem exists_parted (path : List Char) :
    ∃ directories decoration, Parted path directories (baseName path) decoration := by
  let plain := path.takeWhile (!startsDecoration ·)
  let directories := (plain.reverse.dropWhile (!endsDirectory ·)).reverse
  have hplain : directories ++ baseName path = plain := by
    rw [baseName, ← List.reverse_append, List.takeWhile_append_dropWhile, List.reverse_reverse]
  refine ⟨directories, path.dropWhile (!startsDecoration ·), ?_, ?_, ?_, ?_, ?_⟩
  · rw [hplain, List.takeWhile_append_dropWhile]
  · intro c hc
    rw [hplain] at hc
    simpa using List.mem_takeWhile_imp hc
  · rw [List.getLast?_reverse]
    exact head?_dropWhile_kind plain.reverse
  · intro c hc
    simpa using List.mem_takeWhile_imp (List.mem_reverse.mp hc)
  · exact head?_dropWhile_kind path

/-- A text is the base name of a path exactly if the path consists of it and what decorates it. -/
theorem baseName_eq_iff {path name : List Char} :
    baseName path = name ↔ ∃ directories decoration, Parted path directories name decoration := by
  constructor
  · rintro rfl
    exact exists_parted path
  · rintro ⟨directories, decoration, h⟩
    exact h.baseName_eq

/-! ## Decoration -/

/-- A path is another one with directories in front of it and a query string or fragment behind it, if
anything. -/
def Decorated (plain path : String) : Prop :=
  ∃ front back : String, path = front ++ plain ++ back ∧
    (∀ c ∈ front.toList, startsDecoration c = false) ∧
    (∀ c ∈ front.toList.getLast?, endsDirectory c = true) ∧
    ∀ c ∈ back.toList.head?, startsDecoration c = true

/-- Decoration leaves the base name as it is. -/
theorem Decorated.baseName_eq {plain path : String} (h : Decorated plain path) :
    baseName path.toList = baseName plain.toList := by
  obtain ⟨front, back, rfl, hfree, hended, hstarted⟩ := h
  obtain ⟨directories, decoration, hparted⟩ := exists_parted plain.toList
  have hwhole : Parted (front ++ plain ++ back).toList (front.toList ++ directories)
      (baseName plain.toList) (decoration ++ back.toList) := by
    refine ⟨?_, fun c hc => ?_, fun c hc => ?_, hparted.named, fun c hc => ?_⟩
    · rw [String.toList_append, String.toList_append]
      conv_lhs => rw [hparted.whole]
      simp only [List.append_assoc]
    · rw [List.append_assoc] at hc
      rcases List.mem_append.mp hc with hc | hc
      · exact hfree c hc
      · exact hparted.plain c hc
    · rw [List.getLast?_append] at hc
      rcases Option.or_eq_some_iff.mp hc with hc | ⟨-, hc⟩
      · exact hparted.ended c hc
      · exact hended c hc
    · rw [List.head?_append] at hc
      rcases Option.or_eq_some_iff.mp hc with hc | ⟨-, hc⟩
      · exact hparted.started c hc
      · exact hstarted c hc
  exact hwhole.baseName_eq

/-! ## Matches -/

/-- A path has a name beside directories and a decoration. -/
def HasName (path : String) (name : List Char) : Prop :=
  ∃ directories decoration, Parted path.toList directories name decoration

/-- A file and a source have the same name, which is not empty. -/
def Matches (file source : String) : Prop :=
  ∃ name, name ≠ [] ∧ HasName file name ∧ HasName source name

/-- The name that a path has is its base name. -/
theorem hasName_iff {path : String} {name : List Char} :
    HasName path name ↔ baseName path.toList = name :=
  baseName_eq_iff.symm

/-- A file matches a source if both have one base name, which is not empty. -/
theorem matches_iff {file source : String} :
    Matches file source ↔ baseName file.toList ≠ [] ∧ baseName source.toList = baseName file.toList := by
  simp only [Matches, hasName_iff]
  constructor
  · rintro ⟨name, hname, rfl, hsource⟩
    exact ⟨hname, hsource⟩
  · rintro ⟨hname, hsource⟩
    exact ⟨_, hname, rfl, hsource⟩

instance (file source : String) : Decidable (Matches file source) :=
  decidable_of_iff _ matches_iff.symm

/-- A source is the first that a file matches. -/
structure FirstMatch (sources : List String) (file : String) (s : ℕ) : Prop where
  /-- The file matches it. -/
  here : ∃ source, sources[s]? = some source ∧ Matches file source
  /-- It matches none before. -/
  first : ∀ i source, i < s → sources[i]? = some source → ¬Matches file source

/-- The name of a file is empty, or the file matches no source. -/
def Unmatched (sources : List String) (file : String) : Prop :=
  HasName file [] ∨ ∀ source ∈ sources, ¬Matches file source

section Matches

variable {sources : List String} {file : String} {s s' : ℕ}

/-- There is one first match. -/
theorem FirstMatch.unique (h : FirstMatch sources file s) (h' : FirstMatch sources file s') :
    s = s' := by
  obtain ⟨source, hsource, hmatch⟩ := h.here
  obtain ⟨source', hsource', hmatch'⟩ := h'.here
  rcases Nat.lt_trichotomy s s' with hlt | heq | hlt
  · exact absurd hmatch (h'.first s source hlt hsource)
  · exact heq
  · exact absurd hmatch' (h.first s' source' hlt hsource')

/-- Nothing matches exactly if the file matches no source. -/
theorem unmatched_iff : Unmatched sources file ↔ ∀ source ∈ sources, ¬Matches file source := by
  refine ⟨fun h => h.elim (fun hname source _ hmatch => ?_) id, Or.inr⟩
  exact (matches_iff.mp hmatch).1 (hasName_iff.mp hname)

/-- Where there is a match there is not none. -/
theorem FirstMatch.not_unmatched (h : FirstMatch sources file s) : ¬Unmatched sources file := by
  obtain ⟨source, hsource, hmatch⟩ := h.here
  exact fun hnone => unmatched_iff.mp hnone source (List.mem_of_getElem? hsource) hmatch

/-- What is found is the place of the first source that the hint matches. -/
theorem findSource?_eq_findIdx? (sources : List String) (hint : String) :
    findSource? sources hint = sources.findIdx? fun source => Matches hint source := by
  unfold findSource?
  by_cases hname : baseName hint.toList = []
  · have hnone : (sources.findIdx? fun source => Matches hint source) = none := by
      simp [matches_iff, hname]
    simp only [hname, if_true, hnone]
  · simp [matches_iff, hname]

/-- Nothing is found exactly if there is no match. -/
theorem findSource?_eq_none : findSource? sources file = none ↔ Unmatched sources file := by
  rw [findSource?_eq_findIdx?, unmatched_iff]
  simp

/-- What is found is the first match. -/
theorem firstMatch_of_findSource? (h : findSource? sources file = some s) :
    FirstMatch sources file s := by
  rw [findSource?_eq_findIdx?] at h
  obtain ⟨hs, hmatch, hfirst⟩ := List.findIdx?_eq_some_iff_getElem.mp h
  refine ⟨⟨sources[s], List.getElem?_eq_getElem hs, by simpa using hmatch⟩, ?_⟩
  intro i source hi hsource
  obtain ⟨hlength, rfl⟩ := List.getElem?_eq_some_iff.mp hsource
  simpa using hfirst i hi

/-- The first match is found, and nothing else. -/
theorem findSource?_eq_some : findSource? sources file = some s ↔ FirstMatch sources file s := by
  refine ⟨firstMatch_of_findSource?, fun h => ?_⟩
  cases hfound : findSource? sources file with
  | none => exact absurd (findSource?_eq_none.mp hfound) h.not_unmatched
  | some found => rw [(firstMatch_of_findSource? hfound).unique h]

/-- A source is found behind sources that the file does not match. -/
theorem findSource?_append {front back : List String} {source : String}
    (hfront : ∀ other ∈ front, ¬Matches file other) (hmatch : Matches file source) :
    findSource? (front ++ source :: back) file = some front.length := by
  have hnone : front.findIdx? (fun other => Matches file other) = none := by simpa using hfront
  rw [findSource?_eq_findIdx?, List.findIdx?_append, hnone, List.findIdx?_cons]
  simp [hmatch]

/-- A source with a base name matches, at the latest, itself. -/
theorem exists_findSource?_le {source : String} {i : ℕ} (hsource : sources[i]? = some source)
    (hnamed : baseName source.toList ≠ []) :
    ∃ j ≤ i, findSource? sources source = some j := by
  have hitself : Matches source source := matches_iff.mpr ⟨hnamed, rfl⟩
  cases hfound : findSource? sources source with
  | none =>
    have hnone := unmatched_iff.mp (findSource?_eq_none.mp hfound)
    exact absurd hitself (hnone source (List.mem_of_getElem? hsource))
  | some j =>
    refine ⟨j, Nat.le_of_not_lt fun hlt => ?_, rfl⟩
    exact (firstMatch_of_findSource? hfound).first i source hlt hsource hitself

end Matches

/-- A source behind as many others as there are words. -/
def behindAllNumbers (other source : String) : List String :=
  List.replicate UInt32.size other ++ [source]

/-- It is found if the others do not match, though no word tells where. -/
theorem findSource?_behindAllNumbers {other source file : String} (hother : ¬Matches file other)
    (hmatch : Matches file source) :
    findSource? (behindAllNumbers other source) file = some UInt32.size := by
  rw [behindAllNumbers, findSource?_append (fun name hname => ?_) hmatch, List.length_replicate]
  rwa [List.eq_of_mem_replicate hname]

/-- A file and a source that match do so with more decoration or with less. -/
theorem Decorated.matches_iff {file file' source source' : String} (hfile : Decorated file file')
    (hsource : Decorated source source') : Matches file' source' ↔ Matches file source := by
  rw [OriginMap.matches_iff, OriginMap.matches_iff, hfile.baseName_eq, hsource.baseName_eq]

/-- A source is found for a hint exactly if it is the first with the hint's base name, and none exactly if
that is empty or no source has it. A base name is what a path consists of beside directories and
decoration, of which the hint and each of the sources may have more or less without any difference. A
source with a base name finds itself or one before it. -/
theorem findSource?_of_decorated :
    (∀ path name, baseName path = name ↔
      ∃ directories decoration, Parted path directories name decoration) ∧
    (∀ sources hint, (∀ i, findSource? sources hint = some i ↔ FirstMatch sources hint i) ∧
      (findSource? sources hint = none ↔ Unmatched sources hint)) ∧
    (∀ sources sources' hint hint', List.Forall₂ Decorated sources sources' →
      Decorated hint hint' → findSource? sources' hint' = findSource? sources hint) ∧
    ∀ (sources : List String) i source, sources[i]? = some source → baseName source.toList ≠ [] →
      ∃ j ≤ i, findSource? sources source = some j := by
  refine ⟨fun path name => baseName_eq_iff,
    fun sources hint => ⟨fun i => findSource?_eq_some, findSource?_eq_none⟩, ?_,
    fun sources i source => exists_findSource?_le⟩
  intro sources sources' hint hint' hsources hhint
  rw [findSource?_eq_findIdx?, findSource?_eq_findIdx?]
  induction hsources with
  | nil => rfl
  | cons hsource _ ih => simp only [List.findIdx?_cons, hhint.matches_iff hsource, ih]

/-- Of two sources with one base name, one of them under a server's address and with a query string in which
slashes stand, the first is found for a hint with a fragment, and for the second. -/
theorem findSource?_of_decorated_hint :
    let sources := ["src/a.ts", "lib/a.ts"]
    let sources' := ["webpack:///src/a.ts?from=/b.ts", "lib/a.ts"]
    List.Forall₂ Decorated sources sources' ∧ Decorated "a.ts" "C:\\app\\a.ts#L1/2" ∧
      findSource? sources' "C:\\app\\a.ts#L1/2" = findSource? sources "a.ts" ∧
      sources[1]? = some "lib/a.ts" ∧ baseName "lib/a.ts".toList ≠ [] ∧
      ∃ j ≤ 1, findSource? sources "lib/a.ts" = some j := by
  intro sources sources'
  have hsources : List.Forall₂ Decorated sources sources' := by
    refine .cons ⟨"webpack:///", "?from=/b.ts", ?_⟩ (.cons ⟨"", "", ?_⟩ .nil)
    · simp [startsDecoration, endsDirectory]
    · simp [startsDecoration, endsDirectory]
  have hhint : Decorated "a.ts" "C:\\app\\a.ts#L1/2" :=
    ⟨"C:\\app\\", "#L1/2", by simp [startsDecoration, endsDirectory]⟩
  have hnamed : baseName "lib/a.ts".toList ≠ [] := by decide
  obtain ⟨-, -, hsame, hitself⟩ := findSource?_of_decorated
  exact ⟨hsources, hhint, hsame sources sources' _ _ hsources hhint, rfl, hnamed,
    hitself sources 1 "lib/a.ts" rfl hnamed⟩

end OriginMap
