import OriginMap.Proofs.Text.Parts
import OriginMap.Text.Lines

/-!
# What the lines of a text are

A text is made of lines one after the other, each with the line feed that ends it. The lines are said
without splitting: a rule for every way in which a text may go on, and every text is made of one list of
lines only.
-/

namespace OriginMap.Text

/-- The lines that a text is made of. -/
inductive Lined : List Char → List (List Char) → Prop
  /-- Where no character is left, no line is, also after a line feed. -/
  | empty : Lined [] []
  /-- What no line feed ends is a line as it stands, with a carriage return at its end. -/
  | last {line : List Char} (hline : '\n' ∉ line) (hne : line ≠ []) : Lined line [line]
  /-- A line feed ends a line. -/
  | feed {line rest : List Char} {others : List (List Char)} (hline : '\n' ∉ line)
      (hreturn : line.getLast? ≠ some '\r') (hrest : Lined rest others) :
      Lined (line ++ '\n' :: rest) (line :: others)
  /-- So does one after a carriage return, which may be a second one. -/
  | returnFeed {line rest : List Char} {others : List (List Char)} (hline : '\n' ∉ line)
      (hrest : Lined rest others) : Lined (line ++ '\r' :: '\n' :: rest) (line :: others)

/-- A text without line feeds is its own line. -/
theorem lines_of_notMem {line : List Char} (hline : '\n' ∉ line) (hne : line ≠ []) :
    lines line = [line] := by
  have hcuts : line.splitOn '\n' = [line] := List.splitOn_eq_singleton hline
  simp only [lines, hcuts, List.dropLast_singleton, List.map_nil, List.nil_append, List.getLast?_singleton]

/-- The line before a line feed comes before the lines after it. -/
theorem lines_append_feed {line : List Char} (hline : '\n' ∉ line) (rest : List Char) :
    lines (line ++ '\n' :: rest) = dropReturn line :: lines rest := by
  have hcuts : (line ++ '\n' :: rest).splitOn '\n' = line :: rest.splitOn '\n' := by
    rw [List.splitOn_append_cons_self, List.splitOn_eq_singleton hline, List.singleton_append]
  obtain ⟨first, others, hrest⟩ : ∃ first others, rest.splitOn '\n' = first :: others :=
    List.exists_cons_of_ne_nil (by simp)
  simp only [lines, hcuts, hrest, List.dropLast_cons_cons, List.map_cons, List.cons_append,
    List.getLast?_cons_cons]

/-- A text is made of its lines. -/
theorem lined_lines (text : List Char) : Lined text (lines text) := by
  induction hlength : text.length using Nat.strongRecOn generalizing text with
  | ind length ih =>
    obtain ⟨line, after, rfl, hbetween⟩ := exists_between_start '\n' text
    cases after with
    | nil =>
      rw [List.append_nil] at hlength ⊢
      by_cases hne : line = []
      · subst hne
        exact .empty
      · rw [lines_of_notMem hbetween.notMem hne]
        exact .last hbetween.notMem hne
    | cons c rest =>
      obtain rfl : c = '\n' := List.mem_singleton.mp (hbetween.after c rfl)
      have hrest : Lined rest (lines rest) := ih rest.length (by simp at hlength; omega) rest rfl
      rw [lines_append_feed hbetween.notMem, dropReturn]
      split
      · next hreturn =>
        -- The line that is left ends before the carriage return, which goes to the line's end.
        obtain ⟨front, rfl⟩ : ∃ front, line = front ++ ['\r'] := by
          simpa [List.getLast?_eq_some_iff] using hreturn
        rw [List.dropLast_concat, List.append_assoc, List.singleton_append]
        exact .returnFeed (fun h => hbetween.notMem (List.mem_append_left _ h)) hrest
      · next hreturn => exact .feed hbetween.notMem hreturn hrest

/-- It is made of no others. -/
theorem Lined.eq_lines {text : List Char} {found : List (List Char)} (h : Lined text found) :
    found = lines text := by
  induction h with
  | empty => rfl
  | last hline hne => exact (lines_of_notMem hline hne).symm
  | feed hline hreturn _ ih => rw [lines_append_feed hline, dropReturn, if_neg hreturn, ih]
  | @returnFeed line rest others hline _ ih =>
    have hcut : '\n' ∉ line ++ ['\r'] := by simp [hline]
    rw [List.append_cons, lines_append_feed hcut, dropReturn, if_pos (by simp), List.dropLast_concat, ih]

/-- The lines of a text are what it is made of. -/
theorem lined_iff {text : List Char} {found : List (List Char)} : Lined text found ↔ found = lines text :=
  ⟨Lined.eq_lines, fun h => h ▸ lined_lines text⟩

/-- A text has a character for each of its lines. -/
theorem Lined.length_le {text : List Char} {found : List (List Char)} (h : Lined text found) :
    found.length ≤ text.length := by
  induction h with
  | empty => exact Nat.le_refl 0
  | last _ hne => simpa [Nat.one_le_iff_ne_zero] using hne
  | feed _ _ _ ih =>
    simp only [List.length_cons, List.length_append]
    omega
  | returnFeed _ _ ih =>
    simp only [List.length_cons, List.length_append]
    omega

end OriginMap.Text
