import Mathlib.Data.List.Basic
import Mathlib.Tactic.Ring
import OriginMap.Mappings.Standard
import OriginMap.Proofs.Delta

/-!
# Standard texts are read back

The standard text of entries in non-decreasing generated lines is read as those entries, in either mode
and without a piece that gives none. Writer and reader carry the same running values: a piece leads the
reader to the position of its entry, and so a line does, and the text.
-/

namespace OriginMap.Mappings

/-! ## Pieces -/

/-- A running value that is led to a word by its difference arrives there. -/
theorem sum?_sub (a : ℤ) (w : UInt32) : sum? a (number w - a) = some (number w) := by
  have hw := w.toNat_lt_size
  have hsum : a + (number w - a) = number w := by ring
  have hfits : fitsSigned (number w) = true := by
    unfold fitsSigned number
    simp only [UInt32.size] at hw
    simp only [Bool.and_eq_true, decide_eq_true_eq]
    omega
  rw [sum?, hsum, if_pos hfits]

/-- The values of a position are those of words. -/
structure Position.InRange (p : Position) : Prop where
  /-- The generated column. -/
  generated : 0 ≤ p.generated ∧ p.generated < UInt32.size
  /-- The source index. -/
  source : 0 ≤ p.running.source ∧ p.running.source < UInt32.size
  /-- The source line. -/
  line : 0 ≤ p.running.line ∧ p.running.line < UInt32.size
  /-- The source column. -/
  column : 0 ≤ p.running.column ∧ p.running.column < UInt32.size
  /-- The name index. -/
  name : 0 ≤ p.running.name ∧ p.running.name < UInt32.size

/-- The number of a word is in the range of words. -/
theorem number_inRange (w : UInt32) : 0 ≤ number w ∧ number w < UInt32.size := by
  have hw := w.toNat_lt_size
  unfold number
  omega

/-- An entry leads to a position in range. -/
theorem Position.InRange.after {p : Position} (hp : p.InRange) (e : Entry) : (p.after e).InRange := by
  refine ⟨number_inRange _, number_inRange _, number_inRange _, number_inRange _, ?_⟩
  cases hname : e.nameIndex with
  | none => simpa only [Position.after, hname] using hp.name
  | some name => simpa only [Position.after, hname] using number_inRange name

/-- The position with which a line starts is in range if the values before it are. -/
theorem lineStart_inRange {p : Position} (hp : p.InRange) (mode : Accumulation) :
    (lineStart mode p.running).InRange := by
  have hzero : (0 : ℤ) ≤ 0 ∧ (0 : ℤ) < UInt32.size := by decide
  cases mode with
  | crossLine => exact ⟨hzero, hp.source, hp.line, hp.column, hp.name⟩
  | perLine => exact ⟨hzero, hzero, hzero, hzero, hzero⟩

/-- The differences to values in range are small enough to be read back. -/
theorem natAbs_differences_lt {p : Position} (hp : p.InRange) (e : Entry) :
    ∀ value ∈ differences p e, value.natAbs < 2 ^ 59 := by
  have hbound {a : ℤ} (ha : 0 ≤ a ∧ a < UInt32.size) (w : UInt32) :
      (number w - a).natAbs < 2 ^ 59 := by
    have hw := number_inRange w
    simp only [UInt32.size] at ha hw
    omega
  intro value hvalue
  rcases List.mem_append.mp hvalue with hvalue | hvalue
  · simp only [List.mem_cons, List.not_mem_nil, or_false] at hvalue
    rcases hvalue with rfl | rfl | rfl | rfl
    · exact hbound hp.generated _
    · exact hbound hp.source _
    · exact hbound hp.line _
    · exact hbound hp.column _
  · cases hname : e.nameIndex with
    | none => simp [hname] at hvalue
    | some name =>
      rw [hname, List.mem_singleton] at hvalue
      subst hvalue
      exact hbound hp.name _

/-- The differences of an entry to a position lead from that position to the entry. -/
theorem Position.map_differences (p : Position) (e : Entry) :
    p.map e.generatedLine (number e.generatedColumn - p.generated)
        (number e.sourceIndex - p.running.source) (number e.sourceLine - p.running.line)
        (number e.sourceColumn - p.running.column)
        (e.nameIndex.map fun name => number name - p.running.name) =
      (.entry e, p.after e) := by
  have hword (w : UInt32) : word? (number w) = some w := word?_eq_some_iff.mpr rfl
  have hadvance : p.advance (number e.generatedColumn - p.generated)
      (number e.sourceIndex - p.running.source) (number e.sourceLine - p.running.line)
      (number e.sourceColumn - p.running.column)
      (e.nameIndex.map fun name => number name - p.running.name) = some (p.after e) := by
    cases hname : e.nameIndex <;> simp [Position.advance, Position.after, sum?_sub, hname]
  have hentry : Position.entry? (p.after e) e.generatedLine e.nameIndex.isSome = some e := by
    obtain ⟨line, column, source, sourceLine, sourceColumn, nameIndex⟩ := e
    cases nameIndex <;> simp [Position.entry?, Position.after, hword]
  simp only [Position.map, hadvance, Option.isSome_map, hentry]

/-- The piece of an entry is read as that entry. -/
theorem readPiece_encode {p : Position} (hp : p.InRange) (e : Entry) :
    readPiece e.generatedLine (Delta.encode (differences p e)) p = (.entry e, p.after e) := by
  rw [readPiece, Delta.decode_encode (natAbs_differences_lt hp e)]
  have hmap := p.map_differences e
  cases hname : e.nameIndex with
  | none =>
    rw [hname] at hmap
    simp only [differences, hname, List.cons_append, List.nil_append]
    exact hmap
  | some name =>
    rw [hname] at hmap
    simp only [differences, hname, List.cons_append, List.nil_append]
    exact hmap

/-! ## Lines -/

/-- The segments of entries of one line are read as those entries. -/
theorem mapM_readPiece_lineSegments {p : Position} (hp : p.InRange) {line : UInt32}
    {entries : List Entry} (hline : ∀ e ∈ entries, e.generatedLine = line) :
    (((lineSegments p entries).1.mapM (readPiece line)).run p =
        (entries.map Outcome.entry, (lineSegments p entries).2)) ∧
      (lineSegments p entries).2.InRange := by
  induction entries generalizing p with
  | nil => exact ⟨rfl, hp⟩
  | cons e rest ih =>
    obtain ⟨hrest, hlast⟩ := ih (hp.after e) fun other hother => hline other (by simp [hother])
    have hpiece := readPiece_encode hp e
    rw [hline e (by simp)] at hpiece
    refine ⟨?_, hlast⟩
    simp only [lineSegments, List.mapM_cons, StateT.run_bind]
    rw [show (readPiece line (Delta.encode (differences p e))).run p = _ from hpiece]
    simp only [List.map_cons]
    show ((lineSegments (p.after e) rest).1.mapM (readPiece line) >>= fun others =>
      pure (Outcome.entry e :: others)).run (p.after e) = _
    rw [StateT.run_bind, hrest]
    rfl

/-- Every segment of a line is some text without separators. -/
theorem mem_lineSegments {p : Position} {entries : List Entry} :
    ∀ segment ∈ (lineSegments p entries).1, segment ≠ [] ∧ ';' ∉ segment ∧ ',' ∉ segment := by
  induction entries generalizing p with
  | nil => simp [lineSegments]
  | cons e rest ih =>
    intro segment hsegment
    rcases List.mem_cons.mp hsegment with rfl | hsegment
    · exact ⟨Delta.encode_ne_nil (by simp [differences]), Delta.separator_notMem_encode _⟩
    · exact ih segment hsegment

/-- Joined segments are the pieces of their line. -/
theorem pieces_intercalate {segments : List (List Char)}
    (hsegments : ∀ segment ∈ segments, segment ≠ [] ∧ ',' ∉ segment) :
    pieces ([','].intercalate segments) = segments := by
  cases segments with
  | nil => simp [pieces, List.intercalate]
  | cons first rest =>
    rw [pieces, List.splitOn_intercalate ',' (fun l hl => (hsegments l hl).2) (by simp),
      List.filter_eq_self]
    intro segment hsegment
    simpa using (hsegments segment hsegment).1

/-- Reading a line reads its pieces from where the line starts. -/
theorem run_readLine (mode : Accumulation) (text : List Char) (line : ℕ) (running : Running) :
    (readLine mode (text, line)).run running =
      let read := ((pieces text).mapM (readPiece (UInt32.ofNat line))).run (lineStart mode running)
      (read.1, read.2.running) := by
  cases mode <;> rfl

/-- The text of a line is read as the entries of that line. -/
theorem run_readLine_lineSegments {running : Running} {mode : Accumulation}
    (hstart : (lineStart mode running).InRange) {line : ℕ} {entries : List Entry}
    (hline : ∀ e ∈ entries, e.generatedLine.toNat = line) :
    (readLine mode ([','].intercalate (lineSegments (lineStart mode running) entries).1, line)).run
        running =
      (entries.map Outcome.entry, (lineSegments (lineStart mode running) entries).2.running) := by
  have hword : ∀ e ∈ entries, e.generatedLine = UInt32.ofNat line := by
    intro e he
    rw [← hline e he, UInt32.ofNat_toNat]
  have hpieces : pieces ([','].intercalate (lineSegments (lineStart mode running) entries).1) =
      (lineSegments (lineStart mode running) entries).1 :=
    pieces_intercalate fun segment hsegment =>
      ⟨(mem_lineSegments segment hsegment).1, (mem_lineSegments segment hsegment).2.2⟩
  rw [run_readLine, hpieces, (mapM_readPiece_lineSegments hstart hword).1]

/-! ## Texts -/

/-- The entries of a line. -/
def entriesAt (entries : List Entry) (line : ℕ) : List Entry :=
  entries.filter fun e => e.generatedLine.toNat = line

/-- The entries of a line are of that line. -/
theorem generatedLine_of_mem_entriesAt (entries : List Entry) (line : ℕ) :
    ∀ e ∈ entriesAt entries line, e.generatedLine.toNat = line := by
  intro e he
  simpa using (List.mem_filter.mp he).2

/-- The texts of lines are read, one after another, as the entries of each. -/
theorem run_mapM_readLine_lineTexts {p : Position} (hp : p.InRange) (mode : Accumulation)
    (entries : List Entry) (line count : ℕ) :
    ((((lineTexts mode entries p.running line count).zipIdx line).mapM (readLine mode)).run
        p.running).1 =
      (List.range' line count).map fun number => (entriesAt entries number).map Outcome.entry := by
  induction count generalizing p line with
  | zero => rfl
  | succ count ih =>
    have hstart := lineStart_inRange hp mode
    have hread := run_readLine_lineSegments hstart
      (generatedLine_of_mem_entriesAt entries line)
    have hword : ∀ e ∈ entriesAt entries line, e.generatedLine = UInt32.ofNat line := by
      intro e he
      rw [← generatedLine_of_mem_entriesAt entries line e he, UInt32.ofNat_toNat]
    have hlast := (mapM_readPiece_lineSegments hstart hword).2
    have hrest := ih hlast (line + 1)
    simp only [lineTexts, List.zipIdx_cons, List.mapM_cons, StateT.run_bind, List.range'_succ,
      List.map_cons]
    rw [show entries.filter (fun e => e.generatedLine.toNat = line) = entriesAt entries line from rfl,
      hread]
    simp only [← hrest]
    rfl

/-- What stands in joined texts is the separator or stands in one of them. -/
theorem mem_intercalate {separator c : Char} {texts : List (List Char)}
    (hc : c ∈ [separator].intercalate texts) : c = separator ∨ ∃ text ∈ texts, c ∈ text := by
  induction texts with
  | nil => simp at hc
  | cons text texts ih =>
    cases texts with
    | nil => exact Or.inr ⟨text, by simp, by simpa using hc⟩
    | cons next texts =>
      rw [List.intercalate_cons_cons, List.mem_append, List.mem_append] at hc
      rcases hc with (hc | hc) | hc
      · exact Or.inr ⟨text, by simp, hc⟩
      · exact Or.inl (by simpa using hc)
      · rcases ih hc with hc | ⟨other, hother, hc⟩
        · exact Or.inl hc
        · exact Or.inr ⟨other, List.mem_cons_of_mem _ hother, hc⟩

/-- A line holds no separator of lines. -/
theorem separator_notMem_lineTexts {mode : Accumulation} {entries : List Entry} {running : Running}
    {line count : ℕ} : ∀ text ∈ lineTexts mode entries running line count, ';' ∉ text := by
  induction count generalizing running line with
  | zero => simp [lineTexts]
  | succ count ih =>
    intro text htext
    rcases List.mem_cons.mp htext with rfl | htext
    · intro hmem
      rcases mem_intercalate hmem with h | ⟨segment, hsegment, hmem⟩
      · simp at h
      · exact (mem_lineSegments segment hsegment).2.1 hmem
    · exact ih text htext

/-- There are as many texts of lines as lines. -/
theorem length_lineTexts (mode : Accumulation) (entries : List Entry) (running : Running)
    (line count : ℕ) : (lineTexts mode entries running line count).length = count := by
  induction count generalizing running line with
  | zero => rfl
  | succ count ih => simp [lineTexts, ih]

/-- In non-decreasing lines, the entries of the first line come first. -/
theorem entriesAt_append_filter {entries : List Entry} {line : ℕ}
    (hsorted : entries.Pairwise fun a b => a.generatedLine ≤ b.generatedLine)
    (hfirst : ∀ e ∈ entries, line ≤ e.generatedLine.toNat) :
    entriesAt entries line ++ entries.filter (fun e => line + 1 ≤ e.generatedLine.toNat) =
      entries := by
  induction entries with
  | nil => rfl
  | cons e rest ih =>
    have hrest := ih (List.pairwise_cons.mp hsorted).2
      fun other hother => hfirst other (by simp [hother])
    by_cases hline : e.generatedLine.toNat = line
    · simpa [entriesAt, List.filter_cons, hline] using hrest
    · have hlater : ∀ other ∈ e :: rest, line + 1 ≤ other.generatedLine.toNat := by
        intro other hother
        have hfirst := hfirst e (by simp)
        rcases List.mem_cons.mp hother with rfl | hother
        · omega
        · have hle := UInt32.le_iff_toNat_le.mp ((List.pairwise_cons.mp hsorted).1 other hother)
          omega
      have hnone : entriesAt (e :: rest) line = [] := by
        rw [entriesAt, List.filter_eq_nil_iff]
        intro other hother
        have := hlater other hother
        simp only [decide_eq_true_eq]
        omega
      rw [hnone, List.nil_append, List.filter_eq_self]
      simpa using hlater

/-- Entries in non-decreasing lines are those of each line, one line after another. -/
theorem flatMap_entriesAt {entries : List Entry} {line count : ℕ}
    (hsorted : entries.Pairwise fun a b => a.generatedLine ≤ b.generatedLine)
    (hrange : ∀ e ∈ entries,
      line ≤ e.generatedLine.toNat ∧ e.generatedLine.toNat < line + count) :
    (List.range' line count).flatMap (entriesAt entries) = entries := by
  induction count generalizing line entries with
  | zero =>
    cases entries with
    | nil => rfl
    | cons e rest =>
      have := hrange e (by simp)
      omega
  | succ count ih =>
    have hsplit := entriesAt_append_filter hsorted fun e he => (hrange e he).1
    have hlaterRange : ∀ e ∈ entries.filter (fun e => line + 1 ≤ e.generatedLine.toNat),
        line + 1 ≤ e.generatedLine.toNat ∧ e.generatedLine.toNat < line + 1 + count := by
      intro e he
      obtain ⟨he, hline⟩ := List.mem_filter.mp he
      have := hrange e he
      simp only [decide_eq_true_eq] at hline
      omega
    have hlater := ih (hsorted.sublist List.filter_sublist) hlaterRange
    have hsame : (List.range' (line + 1) count).flatMap (entriesAt entries) =
        (List.range' (line + 1) count).flatMap
          (entriesAt (entries.filter fun e => line + 1 ≤ e.generatedLine.toNat)) := by
      apply List.flatMap_congr
      intro number hnumber
      have hnumber := (List.mem_range'_1.mp hnumber).1
      rw [entriesAt, entriesAt, List.filter_filter]
      apply List.filter_congr
      intro e _
      by_cases hline : e.generatedLine.toNat = number
      · simp [hline, hnumber]
      · simp [hline]
    rw [List.range'_succ, List.flatMap_cons, hsame, hlater, hsplit]

/-- Every entry lies in the lines that are written. -/
theorem generatedLine_lt_lineCount {entries : List Entry}
    (hsorted : entries.Pairwise fun a b => a.generatedLine ≤ b.generatedLine) :
    ∀ e ∈ entries, e.generatedLine.toNat < lineCount entries := by
  intro e he
  obtain ⟨front, last, rfl⟩ := (List.eq_nil_or_concat entries).resolve_left (List.ne_nil_of_mem he)
  rw [List.concat_eq_append] at he hsorted ⊢
  have hcount : lineCount (front ++ [last]) = last.generatedLine.toNat + 1 := by
    simp [lineCount]
  rw [hcount]
  rcases List.mem_append.mp he with he | he
  · have hle := (List.pairwise_append.mp hsorted).2.2 e he last (by simp)
    have := UInt32.le_iff_toNat_le.mp hle
    omega
  · rw [List.mem_singleton.mp he]
    omega

/-- No more lines are written than words can number. -/
theorem lineCount_le (entries : List Entry) : lineCount entries ≤ UInt32.size := by
  unfold lineCount
  cases entries.getLast? with
  | none => exact Nat.zero_le _
  | some e => exact e.generatedLine.toNat_lt_size

/-- The numbered lines of a standard text. -/
theorem numberedLines_standardText (mode : Accumulation) {entries : List Entry}
    (hentries : entries ≠ []) :
    numberedLines (standardText mode entries) =
      (lineTexts mode entries .zero 0 (lineCount entries)).zipIdx := by
  have hlength := length_lineTexts mode entries .zero 0 (lineCount entries)
  have hne : lineTexts mode entries .zero 0 (lineCount entries) ≠ [] := by
    obtain ⟨front, last, rfl⟩ := (List.eq_nil_or_concat entries).resolve_left hentries
    intro hnil
    rw [hnil] at hlength
    simp [lineCount] at hlength
  rw [numberedLines, standardText,
    List.splitOn_intercalate ';' separator_notMem_lineTexts hne, List.take_of_length_le]
  rw [hlength]
  exact lineCount_le entries

/-- The outcomes of a standard text are its entries. -/
theorem outcomes_standardText (mode : Accumulation) {entries : List Entry}
    (hsorted : entries.Pairwise fun a b => a.generatedLine ≤ b.generatedLine) :
    outcomes (standardText mode entries) mode = entries.map Outcome.entry := by
  by_cases hentries : entries = []
  · subst hentries
    cases mode <;> rfl
  · have hzero : (⟨0, .zero⟩ : Position).InRange := by
      constructor <;> decide
    have hread := run_mapM_readLine_lineTexts hzero mode entries 0 (lineCount entries)
    rw [outcomes, numberedLines_standardText mode hentries, hread, ← List.flatMap_def,
      ← List.map_flatMap, flatMap_entriesAt hsorted]
    intro e he
    have := generatedLine_lt_lineCount hsorted e he
    omega

/-- Outcomes that are all entries give those entries and nothing else. -/
theorem ofOutcomes_map_entry (entries : List Entry) :
    Decoded.ofOutcomes (entries.map Outcome.entry) = ⟨entries, 0, 0⟩ := by
  have hcount (other : Outcome) (hother : ∀ e, Outcome.entry e ≠ other) :
      (entries.map Outcome.entry).count other = 0 := by
    rw [List.count_eq_zero]
    intro hmem
    obtain ⟨e, _, he⟩ := List.mem_map.mp hmem
    exact hother e he
  simp only [Decoded.ofOutcomes, hcount .skipped (by simp), hcount .unmapped (by simp),
    List.filterMap_map, Decoded.mk.injEq, and_true]
  exact List.filterMap_some

/-- The standard text of entries in non-decreasing generated lines is read as exactly those entries,
in their order, and no piece of it is left out. -/
theorem decode_standardText (mode : Accumulation) {entries : List Entry}
    (hsorted : entries.Pairwise fun a b => a.generatedLine ≤ b.generatedLine) :
    decode (String.ofList (standardText mode entries)) mode = ⟨entries, 0, 0⟩ := by
  rw [decode, String.toList_ofList, outcomes_standardText mode hsorted, ofOutcomes_map_entry]

/-- Columns may go back within a line, lines may be empty, and values reach the ends of their range. -/
theorem decode_standardText_extremes :
    ([⟨0, 4294967295, 1, 0, 3, some 7⟩, ⟨0, 4, 4294967295, 4294967295, 0, none⟩,
        ⟨2, 0, 0, 9, 4294967295, some 0⟩] : List Entry).Pairwise
          (fun a b => a.generatedLine ≤ b.generatedLine) ∧
      decode (String.ofList (standardText .perLine
        [⟨0, 4294967295, 1, 0, 3, some 7⟩, ⟨0, 4, 4294967295, 4294967295, 0, none⟩,
          ⟨2, 0, 0, 9, 4294967295, some 0⟩])) .perLine =
        ⟨[⟨0, 4294967295, 1, 0, 3, some 7⟩, ⟨0, 4, 4294967295, 4294967295, 0, none⟩,
          ⟨2, 0, 0, 9, 4294967295, some 0⟩], 0, 0⟩ :=
  ⟨by decide, decode_standardText .perLine (by decide)⟩

end OriginMap.Mappings
