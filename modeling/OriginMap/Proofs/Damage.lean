import OriginMap.Proofs.Meaning
import OriginMap.Proofs.Nearest

/-!
# Damage stays local

A text is read line by line and a line piece by piece, and all that reading carries along are the running
values. A piece that is not accepted leaves them as they are, so the text can do without it. What stands
after a separator does not change what was read before it. Where every line starts from zero, a line does
not change what is read after it either.
-/

namespace OriginMap.Mappings

open Text

variable {mode : Accumulation} {counted : List Piece} {running : Running}
  {before piece line front back after : List Char}

/-! ## Reading in parts -/

/-- Items are read one part after the other. -/
theorem run_mapM_append {σ α β : Type} (read : α → StateM σ β) (first second : List α) (s : σ) :
    ((first ++ second).mapM read).run s =
      let start := (first.mapM read).run s
      let rest := (second.mapM read).run start.2
      (start.1 ++ rest.1, rest.2) := by
  rw [List.mapM_append, StateT.run_bind]
  rfl

/-- An item that leaves the state as it is adds what it is read as, and nothing else changes. -/
theorem run_mapM_without {σ α β : Type} {read : α → StateM σ β} {first : List α} {item : α} {b : β}
    {s here : σ} (hhere : ((first.mapM read).run s).2 = here)
    (hitem : (read item).run here = (b, here)) (second : List α) :
    ∃ earlier later last,
      ((first ++ item :: second).mapM read).run s = (earlier ++ b :: later, last) ∧
        ((first ++ second).mapM read).run s = (earlier ++ later, last) := by
  let rest := (second.mapM read).run here
  refine ⟨((first.mapM read).run s).1, rest.1, rest.2, ?_, ?_⟩
  · simp only [run_mapM_append, hhere, List.mapM_cons, StateT.run_bind, hitem]
    rfl
  · simp only [run_mapM_append, hhere, rest]

/-- The outcomes of lines that are numbered on from some number, and the running values after them. -/
def readLines (mode : Accumulation) (lines : List (List Char)) (number : ℕ) (running : Running) :
    List Outcome × Running :=
  let read := ((lines.zipIdx number).mapM (readLine mode)).run running
  (read.1.flatten, read.2)

/-- The outcomes of a text are those of its lines, as far as a number fits a word. -/
theorem outcomes_eq (text : List Char) (mode : Accumulation) :
    outcomes text mode =
      (readLines mode ((text.splitOn ';').take UInt32.size) 0 .zero).1 := rfl

/-- Lines are read one part after the other. -/
theorem readLines_append (mode : Accumulation) (first second : List (List Char)) (number : ℕ)
    (running : Running) :
    readLines mode (first ++ second) number running =
      let start := readLines mode first number running
      let rest := readLines mode second (number + first.length) start.2
      (start.1 ++ rest.1, rest.2) := by
  simp only [readLines, List.zipIdx_append, run_mapM_append, List.flatten_append]

/-- A line is read and then those after it. -/
theorem readLines_cons (mode : Accumulation) (line : List Char) (lines : List (List Char))
    (number : ℕ) (running : Running) :
    readLines mode (line :: lines) number running =
      let start := (readLine mode (line, number)).run running
      let rest := readLines mode lines (number + 1) start.2
      (start.1 ++ rest.1, rest.2) := by
  simp only [readLines, List.zipIdx_cons, List.mapM_cons, StateT.run_bind]
  rfl

/-! ## A line and the others -/

/-- What is read of the lines before a line. -/
def readAbove (mode : Accumulation) (before : List Char) : List Outcome × Running :=
  readLines mode (before.splitOn ';').dropLast 0 .zero

/-- What is read of the lines after the line of a number. -/
def readBelow (mode : Accumulation) (after : List Char) (number : ℕ) (running : Running) :
    List Outcome :=
  (readLines mode ((after.splitOn ';').tail.take (UInt32.size - (number + 1))) (number + 1) running).1

/-- After the last line nothing is read. -/
theorem readBelow_nil (mode : Accumulation) (number : ℕ) (running : Running) :
    readBelow mode [] number running = [] := by
  rw [readBelow, List.splitOn_nil, List.tail_cons, List.take_nil]
  rfl

/-- What is read of a text is read of the lines before a line, of the line, and of the lines after it. -/
theorem outcomes_between (h : Between [';'] before line after)
    (hcount : before.count ';' < UInt32.size) (mode : Accumulation) :
    outcomes (before ++ line ++ after) mode =
      let here := (readLine mode (line, before.count ';')).run (readAbove mode before).2
      (readAbove mode before).1 ++
        (here.1 ++ readBelow mode after (before.count ';') here.2) := by
  have htake : ((before ++ line ++ after).splitOn ';').take UInt32.size =
      (before.splitOn ';').dropLast ++
        line :: (after.splitOn ';').tail.take (UInt32.size - (before.count ';' + 1)) := by
    rw [h.splitOn_eq, List.take_append, List.take_of_length_le (by rw [length_above]; omega),
      length_above, List.take_cons (by omega), Nat.sub_sub]
  simp only [outcomes_eq, htake, readLines_append, readLines_cons, length_above, Nat.zero_add]
  rfl

/-- Where a line has no word for its number, only lines before it are read. -/
theorem outcomes_of_late (h : Between [';'] before line after)
    (hcount : UInt32.size ≤ before.count ';') (mode : Accumulation) :
    outcomes (before ++ line ++ after) mode =
      (readLines mode ((before.splitOn ';').dropLast.take UInt32.size) 0 .zero).1 := by
  rw [outcomes_eq, h.splitOn_eq, List.take_append_of_le_length (by rwa [length_above])]

/-! ## A piece and the others -/

/-- A piece that is not accepted is skipped, and the position stays. -/
theorem readPiece_of_not_accepted {number : ℕ} (hnumber : number < UInt32.size)
    (h : ¬Accepted mode counted ⟨number, Delta.decode piece⟩) :
    readPiece (UInt32.ofNat number) piece (positionAt mode counted number) =
      (.skipped, positionAt mode counted number) := by
  rw [readPiece_positionAt mode counted hnumber, outcome_of_not_accepted h, extend_of_not_accepted h]

/-- A line in which a piece is not accepted is read as the line without it, but for one skipped piece. -/
theorem run_readLine_without {number : ℕ} (hnumber : number < UInt32.size)
    (hstart : lineStart mode running = positionAt mode counted number)
    (hpiece : Between [','] front piece back) (hne : piece ≠ [])
    (hnot : ¬Accepted mode ((linePieces (front, number)).foldl (extend mode) counted)
      ⟨number, Delta.decode piece⟩) :
    ∃ earlier later last,
      (readLine mode (front ++ piece ++ back, number)).run running =
          (earlier ++ .skipped :: later, last) ∧
        (readLine mode (front ++ back, number)).run running = (earlier ++ later, last) := by
  have hwith := pieces_between hpiece hne
  have hwithout : pieces (front ++ back) = pieces front ++ pieces back :=
    pieces_append (Or.inl fun c hc => List.mem_singleton.mp (hpiece.before c hc))
  have hfront := congrArg Prod.snd (run_mapM_readPiece mode counted hnumber (pieces front))
  rw [← hstart] at hfront
  obtain ⟨earlier, later, last, hread, hrest⟩ :=
    run_mapM_without hfront (readPiece_of_not_accepted hnumber hnot) (pieces back)
  refine ⟨earlier, later, last.running, ?_, ?_⟩
  · rw [run_readLine, hwith, hread]
  · rw [run_readLine, hwithout, hrest]

/-! ## Texts -/

/-- A line starts from the totals of the accepted pieces in the lines before it. -/
theorem lineStart_readAbove (mode : Accumulation) (hcount : before.count ';' ≤ UInt32.size) :
    lineStart mode (readAbove mode before).2 = positionAt mode
      (accepted mode ((before.splitOn ';').dropLast.zipIdx.flatMap linePieces))
      (before.count ';') := by
  have hlines : 0 + (before.splitOn ';').dropLast.length ≤ UInt32.size := by
    rwa [length_above, Nat.zero_add]
  obtain ⟨-, hafter⟩ := run_mapM_readLine (lineStart_zero mode) (by simp) hlines
  rw [length_above, Nat.zero_add] at hafter
  exact hafter

/-- A text in which a piece is not accepted is read as the text without it, but for one skipped piece. -/
theorem exists_outcomes_without (h : Between [';', ','] before piece after) (hne : piece ≠ [])
    (hnot : ¬Accepted mode (accepted mode (placed before)) ⟨before.count ';', Delta.decode piece⟩)
    (hcount : before.count ';' < UInt32.size) :
    ∃ earlier later, outcomes (before ++ piece ++ after) mode = earlier ++ .skipped :: later ∧
      outcomes (before ++ after) mode = earlier ++ later := by
  obtain ⟨top, front, back, bottom, rfl, rfl, hline, hpiece⟩ := h.unnest
  have hwithout : Between [';'] top (front ++ back) bottom := hline.of_subset (by simp)
  have htop : Between [';'] top front [] :=
    ⟨fun c hc => hline.free c (by simp [hc]), hline.before, by simp⟩
  rw [List.count_append, List.count_eq_zero.mpr htop.notMem, Nat.add_zero] at hnot hcount
  rw [placed_append htop, accepted, List.foldl_append] at hnot
  obtain ⟨earlier, later, last, hread, hrest⟩ :=
    run_readLine_without hcount (lineStart_readAbove mode hcount.le) hpiece hne hnot
  let above := (readAbove mode top).1
  let below := readBelow mode bottom (top.count ';') last
  refine ⟨above ++ earlier, later ++ below, ?_, ?_⟩
  · have houtcomes := outcomes_between hline hcount mode
    rw [hread] at houtcomes
    simpa [above, below] using houtcomes
  · have houtcomes := outcomes_between hwithout hcount mode
    rw [hrest] at houtcomes
    simpa [above, below] using houtcomes

/-- Where a line has no word for its number, its pieces are not read. -/
theorem outcomes_without_late (h : Between [';', ','] before piece after)
    (hcount : UInt32.size ≤ before.count ';') (mode : Accumulation) :
    outcomes (before ++ piece ++ after) mode = outcomes (before ++ after) mode := by
  obtain ⟨top, front, back, bottom, rfl, rfl, hline, -⟩ := h.unnest
  have hwithout : Between [';'] top (front ++ back) bottom := hline.of_subset (by simp)
  have hfront : ';' ∉ front := fun hmem => hline.notMem (by simp [hmem])
  rw [List.count_append, List.count_eq_zero.mpr hfront, Nat.add_zero] at hcount
  have hwhole := outcomes_of_late hline hcount mode
  rw [← outcomes_of_late hwithout hcount mode] at hwhole
  simpa using hwhole

/-- What stands after a separator adds outcomes only after those of a text. -/
theorem outcomes_prefix {second : List Char} (h : Between [';'] before line [])
    (hlonger : Between [';'] before (line ++ second) after) (hsecond : ∀ c ∈ second.head?, c = ',')
    (mode : Accumulation) :
    outcomes (before ++ line) mode <+: outcomes (before ++ (line ++ second) ++ after) mode := by
  rcases Nat.lt_or_ge (before.count ';') UInt32.size with hcount | hcount
  · have hshort := outcomes_between h hcount mode
    have hlong := outcomes_between hlonger hcount mode
    rw [List.append_nil] at hshort
    rw [hshort, hlong, run_readLine, run_readLine, pieces_append (Or.inr hsecond), run_mapM_append]
    refine (List.prefix_append_right_inj _).mpr ?_
    simp only [readBelow_nil, List.append_nil, List.append_assoc]
    exact List.prefix_append _ _
  · have hshort := outcomes_of_late h hcount mode
    rw [List.append_nil] at hshort
    rw [hshort, outcomes_of_late hlonger hcount mode]

/-- Where every line starts from zero, what is read of lines does not depend on those before. -/
theorem readLines_perLine (lines : List (List Char)) (number : ℕ) (running other : Running) :
    (readLines .perLine lines number running).1 = (readLines .perLine lines number other).1 := by
  cases lines with
  | nil => rfl
  | cons line lines =>
    have hline : (readLine .perLine (line, number)).run running =
        (readLine .perLine (line, number)).run other := rfl
    simp only [readLines_cons, hline]

/-- Where every line starts from zero, the entries that are not of a line are those of the lines before
it and after it, whatever the line is. -/
theorem entries_off_line (h : Between [';'] before line after)
    (hcount : before.count ';' < UInt32.size) :
    ((outcomes (before ++ line ++ after) .perLine).filterMap Outcome.entry?).filter
        (·.generatedLine.toNat ≠ before.count ';') =
      (((readAbove .perLine before).1 ++
        readBelow .perLine after (before.count ';') .zero).filterMap Outcome.entry?).filter
          (·.generatedLine.toNat ≠ before.count ';') := by
  let here := (readLine .perLine (line, before.count ';')).run (readAbove .perLine before).2
  have hbelow : readBelow .perLine after (before.count ';') here.2 =
      readBelow .perLine after (before.count ';') .zero := readLines_perLine _ _ _ _
  have hnone : (here.1.filterMap Outcome.entry?).filter
      (·.generatedLine.toNat ≠ before.count ';') = [] := by
    rw [List.filter_eq_nil_iff]
    intro e he
    rw [generatedLine_of_readLine .perLine _ _ e he, UInt32.toNat_ofNat_of_lt' hcount]
    simp
  rw [outcomes_between h hcount .perLine]
  simp only [List.filterMap_append, List.filter_append]
  rw [hnone, hbelow, List.nil_append]

/-! ## Damage -/

/-- A text in which a piece is not accepted has the entries of the text without it, and one skipped piece
more. Pieces in lines that have no words for their numbers are not read at all. -/
theorem decode_without (h : Between [';', ','] before piece after) (hne : piece ≠ [])
    (hnot : ¬Accepted mode (accepted mode (placed before))
      ⟨before.count ';', Delta.decode piece⟩) :
    let whole := decode (.ofList (before ++ piece ++ after)) mode
    let rest := decode (.ofList (before ++ after)) mode
    rest.entries = whole.entries ∧ rest.unmapped = whole.unmapped ∧
      whole.skipped = rest.skipped + if before.count ';' < UInt32.size then 1 else 0 := by
  intro whole rest
  by_cases hcount : before.count ';' < UInt32.size
  · obtain ⟨earlier, later, hwhole, hrest⟩ := exists_outcomes_without h hne hnot hcount
    simp only [whole, rest, decode, String.toList_ofList, hwhole, hrest, Decoded.ofOutcomes,
      if_pos hcount]
    refine ⟨?_, ?_, ?_⟩
    · rw [List.filterMap_append, List.filterMap_append, List.filterMap_cons]
      rfl
    · rw [List.count_append, List.count_append, List.count_cons_of_ne (by decide)]
    · rw [List.count_append, List.count_append, List.count_cons_self, Nat.add_assoc]
  · have hsame : whole = rest := by
      simp only [whole, rest, decode, String.toList_ofList,
        outcomes_without_late h (Nat.le_of_not_lt hcount) mode]
    rw [hsame, if_neg hcount]
    exact ⟨rfl, rfl, (Nat.add_zero _).symm⟩

/-- The entries of a text come first in every text that goes on after it with a separator. -/
theorem entries_prefix (mode : Accumulation) (text more : String) :
    (decode text mode).entries <+: (decode (text ++ ";" ++ more) mode).entries ∧
      (decode text mode).entries <+: (decode (text ++ "," ++ more) mode).entries := by
  obtain ⟨before, line, htext, hline⟩ := exists_between_end ';' text.toList
  obtain ⟨part, after, hmore, hpart⟩ := exists_between_start ';' more.toList
  have hlonger : Between [';'] before (line ++ ',' :: part) after := by
    refine ⟨fun c hc => ?_, hline.before, hpart.after⟩
    rcases List.mem_append.mp hc with hc | hc
    · exact hline.free c hc
    · rcases List.mem_cons.mp hc with rfl | hc
      · decide
      · exact hpart.free c hc
  have hended : Between [';'] before (line ++ []) (';' :: more.toList) := by
    rw [List.append_nil]
    exact ⟨hline.free, hline.before, by simp⟩
  constructor
  · have hprefix := outcomes_prefix hline hended (by simp) mode
    have hwhole : (text ++ ";" ++ more).toList = before ++ (line ++ []) ++ ';' :: more.toList := by
      simp [htext]
    rw [decode, decode, htext, hwhole]
    exact hprefix.filterMap _
  · have hprefix := outcomes_prefix hline hlonger (by simp) mode
    have hwhole : (text ++ "," ++ more).toList = before ++ (line ++ ',' :: part) ++ after := by
      simp [htext, hmore]
    rw [decode, decode, htext, hwhole]
    exact hprefix.filterMap _

/-- Where every line starts from zero, the entries of other lines do not depend on a line. -/
theorem entries_of_other_lines {other : List Char} (h : Between [';'] before line after)
    (hother : ';' ∉ other) :
    (decode (.ofList (before ++ other ++ after)) .perLine).entries.filter
        (·.generatedLine.toNat ≠ before.count ';') =
      (decode (.ofList (before ++ line ++ after)) .perLine).entries.filter
        (·.generatedLine.toNat ≠ before.count ';') := by
  have hchanged : Between [';'] before other after :=
    ⟨fun c hc hmem => hother (List.mem_singleton.mp hmem ▸ hc), h.before, h.after⟩
  rw [decode, decode, String.toList_ofList, String.toList_ofList]
  rcases Nat.lt_or_ge (before.count ';') UInt32.size with hcount | hcount
  · exact (entries_off_line hchanged hcount).trans (entries_off_line h hcount).symm
  · rw [outcomes_of_late hchanged hcount, outcomes_of_late h hcount]

/-- Damage in a text stays local. A piece that is not accepted, for the number of its numbers or for a
total that overflows, can be taken out: entries and unmapped pieces stay what they are, and there is one
skipped piece less, unless the piece is in a line without a word for its number, which is not read. The
entries of a text come first in every text that goes on after it with a separator. Where every line starts
from zero, another line in the place of one leaves the entries of all other lines as they are. -/
theorem damage_stays_local :
    (∀ mode before piece after, Between [';', ','] before piece after → piece ≠ [] →
      ¬Accepted mode (accepted mode (placed before)) ⟨before.count ';', Delta.decode piece⟩ →
      let whole := decode (.ofList (before ++ piece ++ after)) mode
      let rest := decode (.ofList (before ++ after)) mode
      rest.entries = whole.entries ∧ rest.unmapped = whole.unmapped ∧
        whole.skipped = rest.skipped + if before.count ';' < UInt32.size then 1 else 0) ∧
    (∀ mode text more,
      (decode text mode).entries <+: (decode (text ++ ";" ++ more) mode).entries ∧
        (decode text mode).entries <+: (decode (text ++ "," ++ more) mode).entries) ∧
    ∀ before line after other, Between [';'] before line after → ';' ∉ other →
      (decode (.ofList (before ++ other ++ after)) .perLine).entries.filter
          (·.generatedLine.toNat ≠ before.count ';') =
        (decode (.ofList (before ++ line ++ after)) .perLine).entries.filter
          (·.generatedLine.toNat ≠ before.count ';') :=
  ⟨fun _ _ _ _ => decode_without, entries_prefix, fun _ _ _ _ => entries_of_other_lines⟩

/-- Three numbers can be taken out, and their line can be given up. -/
theorem damage_stays_local_of_three_numbers :
    let before := ['U', 'A', 'E', 'G', ',']
    let piece := ['A', 'A', 'A']
    let after := [';', 'A', 'C', 'G', 'H']
    Between [';', ','] before piece after ∧ piece ≠ [] ∧
      ¬Accepted .crossLine (accepted .crossLine (placed before))
        ⟨before.count ';', Delta.decode piece⟩ ∧
      (decode (.ofList (before ++ after)) .crossLine).entries =
        (decode (.ofList (before ++ piece ++ after)) .crossLine).entries ∧
      Between [';'] [] (before ++ piece) after ∧ ';' ∉ ['?'] ∧
      (decode (.ofList ([] ++ ['?'] ++ after)) .perLine).entries.filter
          (·.generatedLine.toNat ≠ List.count ';' []) =
        (decode (.ofList ([] ++ (before ++ piece) ++ after)) .perLine).entries.filter
          (·.generatedLine.toNat ≠ List.count ';' []) := by
  intro before piece after
  have hpiece : Between [';', ','] before piece after :=
    ⟨by simp [piece], by simp [before], by simp [after]⟩
  have hline : Between [';'] [] (before ++ piece) after :=
    ⟨by simp [before, piece], by simp, by simp [after]⟩
  have hvalues : Delta.decode piece = [0, 0, 0] := by decide
  have hnot : ¬Accepted .crossLine (accepted .crossLine (placed before))
      ⟨before.count ';', Delta.decode piece⟩ := fun haccepted => by
    simpa [hvalues] using haccepted.1
  obtain ⟨hwithout, -, hother⟩ := damage_stays_local
  obtain ⟨hentries, -⟩ := hwithout .crossLine before piece after hpiece (by decide) hnot
  exact ⟨hpiece, by decide, hnot, hentries, hline, by decide,
    hother [] (before ++ piece) after ['?'] hline (by decide)⟩

/-- Behind as many separators as there are words a piece of two numbers is not counted, so without it there is
no skipped piece less. -/
theorem not_counted_behind_all_numbers :
    let before := List.replicate UInt32.size ';'
    let piece := ['A', 'A']
    Between [';', ','] before piece [] ∧ piece ≠ [] ∧
      ¬Accepted .crossLine (accepted .crossLine (placed before))
        ⟨before.count ';', Delta.decode piece⟩ ∧
      (decode (.ofList (before ++ piece ++ [])) .crossLine).skipped =
        (decode (.ofList (before ++ [])) .crossLine).skipped := by
  intro before piece
  have hcount : before.count ';' = UInt32.size := List.count_replicate_self
  have hbetween : Between [';', ','] before piece [] := by
    refine ⟨by simp [piece], fun c hc => ?_, by simp⟩
    rw [List.eq_of_mem_replicate (List.mem_of_getLast? hc)]
    exact List.mem_cons_self
  clear_value before
  have hvalues : Delta.decode piece = [0, 0] := by decide
  have hnot : ¬Accepted .crossLine (accepted .crossLine (placed before))
      ⟨before.count ';', Delta.decode piece⟩ := fun haccepted => by
    simpa [hvalues] using haccepted.1
  obtain ⟨-, -, hskipped⟩ := decode_without hbetween (by decide) hnot
  rw [hcount, if_neg (Nat.lt_irrefl _), Nat.add_zero] at hskipped
  exact ⟨hbetween, by decide, hcount ▸ hnot, hskipped⟩

end OriginMap.Mappings
