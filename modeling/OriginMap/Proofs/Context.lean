import Mathlib.Data.List.Infix
import Mathlib.Data.String.Basic
import OriginMap.Context
import OriginMap.Proofs.Text.Lines

/-!
# The window of a line

The lines around a line are those at most a count away from it, as far as the text has them. The words
in which the window's ends are computed stop at the ends of their range, but no text has so many lines
that this shows.
-/

namespace OriginMap

/-- A text has no fewer bytes than lines. -/
theorem Text.length_lines_le (text : String) : (lines text.toList).length ≤ text.utf8ByteSize := by
  have hbytes (chars : List Char) : chars.length ≤ String.utf8Len chars := by
    induction chars with
    | nil => exact Nat.zero_le _
    | cons c rest ih =>
      have hc : 0 < c.utf8Size := Char.utf8Size_pos c
      rw [List.length_cons, String.utf8Len_cons]
      omega
  calc (lines text.toList).length ≤ text.toList.length := (lined_lines text.toList).length_le
    _ ≤ text.utf8ByteSize := String.utf8Len_toList text ▸ hbytes text.toList

namespace Context

/-! ## Words -/

/-- The difference of two words stops at zero, as that of numbers does. -/
@[simp]
theorem toNat_differenceWithin (a b : UInt64) : (differenceWithin a b).toNat = a.toNat - b.toNat := by
  rw [differenceWithin]
  split
  · next h => exact UInt64.toNat_sub_of_le a b h
  · next h =>
    rw [UInt64.le_iff_toNat_le] at h
    exact (Nat.sub_eq_zero_of_le (by omega)).symm

/-- The sum of two words stops at the largest. -/
@[simp]
theorem toNat_sumWithin (a b : UInt64) :
    (sumWithin a b).toNat = min (a.toNat + b.toNat) (UInt64.size - 1) := by
  have hsize : UInt64.size = 18446744073709551616 := rfl
  have ha : a.toNat < UInt64.size := a.toNat_lt_size
  have hmax : (0xFFFFFFFFFFFFFFFF - a).toNat = UInt64.size - 1 - a.toNat :=
    UInt64.toNat_sub_of_le _ _ (UInt64.le_iff_toNat_le.mpr (Nat.le_sub_one_of_lt ha))
  rw [sumWithin]
  split
  · next h =>
    rw [UInt64.le_iff_toNat_le, hmax] at h
    rw [UInt64.toNat_add, Nat.mod_eq_of_lt (by omega), Nat.min_eq_left (by omega)]
  · next h =>
    rw [UInt64.le_iff_toNat_le, hmax] at h
    have hlargest : (0xFFFFFFFFFFFFFFFF : UInt64).toNat = UInt64.size - 1 := rfl
    rw [hlargest, Nat.min_eq_right (by omega)]

/-! ## Windows -/

/-- There are lines around a line exactly if the text has it. -/
theorem isSome_extract? {text : String} {line count : UInt64} :
    (extract? text line count).isSome ↔ line.toNat < (Text.lines text.toList).length := by
  rw [extract?]
  rcases Nat.lt_or_ge line.toNat (Text.lines text.toList).length with hline | hline
  · simp [hline]
  · simp [hline]

/-- What stands before a slice, and the slice. -/
theorem take_append_slice (xs : List α) {start stop : ℕ} (h : start ≤ stop) :
    xs.take start ++ slice xs start stop = xs.take stop := by
  have hstart : xs.take start = (xs.take stop).take start := by
    rw [List.take_take, Nat.min_eq_left h]
  rw [slice, hstart, List.take_append_drop]

/-- An element between two slices up to it and from the next. -/
theorem take_append_slice_cons_slice {xs : List α} {x : α} {start here stop : ℕ} (hx : xs[here]? = some x)
    (hstart : start ≤ here) (hstop : here + 1 ≤ stop) :
    xs.take start ++ (slice xs start here ++ x :: slice xs (here + 1) stop) = xs.take stop := by
  have hnext : xs.take here ++ [x] = xs.take (here + 1) := by
    rw [List.take_add_one, hx, Option.toList_some]
  calc xs.take start ++ (slice xs start here ++ x :: slice xs (here + 1) stop)
      = (xs.take start ++ slice xs start here) ++ [x] ++ slice xs (here + 1) stop := by simp
    _ = xs.take (here + 1) ++ slice xs (here + 1) stop := by rw [take_append_slice xs hstart, hnext]
    _ = xs.take stop := take_append_slice xs hstop

/-- What is shown around a line is cut out where whole numbers put the ends: at the line less the count,
and after the line and the count. -/
theorem extract?_eq_some {text : String} {line count : UInt64} {shown : Context}
    (hsize : text.utf8ByteSize < UInt64.size) (h : extract? text line count = some shown) :
    let lines := (Text.lines text.toList).map String.ofList
    shown.pre = slice lines (line.toNat - count.toNat) line.toNat ∧
      lines[line.toNat]? = some shown.line ∧
      shown.post = slice lines (line.toNat + 1) (min lines.length (line.toNat + 1 + count.toNat)) := by
  intro lines
  have hlength : lines.length < UInt64.size := by
    rw [List.length_map]
    exact (Text.length_lines_le text).trans_lt hsize
  rw [extract?] at h
  split at h
  · contradiction
  · next here hline =>
    obtain rfl := Option.some.inj h
    have hin : line.toNat < lines.length := (List.getElem?_eq_some_iff.mp hline).1
    refine ⟨by rw [toNat_differenceWithin], hline, ?_⟩
    have hstop : min (sumWithin (sumWithin line 1) count).toNat lines.length =
        min lines.length (line.toNat + 1 + count.toNat) := by
      rw [toNat_sumWithin, toNat_sumWithin, UInt64.toNat_one]
      omega
    exact congrArg (slice lines (line.toNat + 1)) hstop

/-- A context is the window of a line among all lines, with a count of them on each side. -/
structure IsWindow (shown : Context) (lines : List String) (line count : ℕ) : Prop where
  /-- It is what stands between the lines above it and below it, and whole numbers say where it starts and
  ends. -/
  between : ∃ above below, lines = above ++ (shown.pre ++ shown.line :: shown.post) ++ below ∧
    (above.length : ℤ) = max 0 ((line : ℤ) - count) ∧
    (lines.length : ℤ) - below.length = min (lines.length : ℤ) (line + count + 1)
  /-- Before the line stands the count, or as many lines as there are. -/
  length_pre : shown.pre.length = min count line

/-- The ends at which a window is cut out are in order and none is past the end of the lines, and the number
of the line after the given one is a word. -/
structure InRange (length : ℕ) (line count : UInt64) : Prop where
  /-- The lines before are cut out between ends in order. -/
  start_le : (differenceWithin line count).toNat ≤ line.toNat
  /-- The later of them is in the text. -/
  line_le : line.toNat ≤ length
  /-- The lines after are cut out from a word on. -/
  next_lt : line.toNat + 1 < UInt64.size
  /-- Their ends are in order. -/
  next_le : line.toNat + 1 ≤ min (sumWithin (sumWithin line 1) count).toNat length

/-- A context shows what another one shows and may show more on both sides. -/
structure Extends (more shown : Context) : Prop where
  /-- The lines before are the last of those shown. -/
  pre : shown.pre <:+ more.pre
  /-- The line is the same. -/
  line : more.line = shown.line
  /-- The lines after are the first of those shown. -/
  post : shown.post <+: more.post

/-- What is shown around a line is its window. -/
theorem isWindow_of_extract? {text : String} {line count : UInt64} {shown : Context}
    (hsize : text.utf8ByteSize < UInt64.size) (h : extract? text line count = some shown) :
    shown.IsWindow ((Text.lines text.toList).map String.ofList) line.toNat count.toNat := by
  obtain ⟨hpre, hline, hpost⟩ := extract?_eq_some hsize h
  generalize (Text.lines text.toList).map String.ofList = lines at hpre hline hpost ⊢
  have hin : line.toNat < lines.length := (List.getElem?_eq_some_iff.mp hline).1
  constructor
  · have hcut := take_append_slice_cons_slice hline (Nat.sub_le line.toNat count.toNat)
      (show line.toNat + 1 ≤ min lines.length (line.toNat + 1 + count.toNat) by omega)
    rw [← hpre, ← hpost] at hcut
    refine ⟨lines.take (line.toNat - count.toNat),
      lines.drop (min lines.length (line.toNat + 1 + count.toNat)), ?_, ?_, ?_⟩
    · rw [hcut, List.take_append_drop]
    · rw [List.length_take]
      omega
    · rw [List.length_drop]
      omega
  · rw [hpre, slice, List.length_drop, List.length_take]
    omega

/-- The ends of a window are in range. -/
theorem inRange_of_lt {text : String} {line count : UInt64} (hsize : text.utf8ByteSize < UInt64.size)
    (hline : line.toNat < (Text.lines text.toList).length) :
    InRange (Text.lines text.toList).length line count := by
  have hlength := Text.length_lines_le text
  constructor
  · rw [toNat_differenceWithin]
    exact Nat.sub_le _ _
  · exact hline.le
  · omega
  · rw [toNat_sumWithin, toNat_sumWithin, UInt64.toNat_one]
    omega

/-- A larger count shows more on both sides. -/
theorem exists_extends {text : String} {line count wider : UInt64} {shown : Context}
    (hsize : text.utf8ByteSize < UInt64.size) (h : extract? text line count = some shown)
    (hwider : count ≤ wider) : ∃ more, extract? text line wider = some more ∧ more.Extends shown := by
  obtain ⟨more, hmore⟩ : ∃ more, extract? text line wider = some more := by
    rw [← Option.isSome_iff_exists, isSome_extract?, ← isSome_extract?, h, Option.isSome_some]
  obtain ⟨hpre, hline, hpost⟩ := extract?_eq_some hsize h
  obtain ⟨hpre', hline', hpost'⟩ := extract?_eq_some hsize hmore
  rw [UInt64.le_iff_toNat_le] at hwider
  refine ⟨more, hmore, ?_, Option.some.inj (hline'.symm.trans hline), ?_⟩
  · rw [hpre, hpre']
    exact List.drop_suffix_drop_left _ (Nat.sub_le_sub_left hwider line.toNat)
  · rw [hpost, hpost']
    exact List.IsPrefix.drop (List.take_prefix_take_left (by omega)) _

/-- Around a line of a text its window is shown, around no line nothing. The text is made of its lines in one
way, and the ends of the window are where whole numbers put them and never out of range. A larger count
only adds lines on both sides. -/
theorem extract?_spec (text : String) (line count : UInt64) (hsize : text.utf8ByteSize < UInt64.size) :
    ∃ lines : List String,
      (∀ found, Text.Lined text.toList found ↔ found = lines.map String.toList) ∧
      (extract? text line count = none ↔ lines.length ≤ line.toNat) ∧
      ∀ shown ∈ extract? text line count,
        shown.IsWindow lines line.toNat count.toNat ∧ InRange lines.length line count ∧
          ∀ wider, count ≤ wider → ∃ more ∈ extract? text line wider, more.Extends shown := by
  refine ⟨(Text.lines text.toList).map String.ofList, fun found => ?_, ?_, fun shown hshown => ?_⟩
  · rw [Text.lined_iff, List.map_map]
    simp
  · rw [← Option.not_isSome_iff_eq_none, isSome_extract?, List.length_map, Nat.not_lt]
  · have hline : line.toNat < (Text.lines text.toList).length :=
      isSome_extract?.mp (Option.isSome_of_mem hshown)
    refine ⟨isWindow_of_extract? hsize hshown, ?_, fun wider hwider => exists_extends hsize hshown hwider⟩
    rw [List.length_map]
    exact inRange_of_lt hsize hline

/-- With the largest count all other lines are shown, an empty one and a carriage return that ends no line
among them. -/
theorem extract?_spec_largest_count :
    let text := "a\r\nb\n\nc\r"
    let shown : Context := ⟨["a"], "b", ["", "c\r"]⟩
    text.utf8ByteSize < UInt64.size ∧ extract? text 1 0xFFFFFFFFFFFFFFFF = some shown ∧
      ∃ lines : List String, Text.Lined text.toList (lines.map String.toList) ∧
        shown.IsWindow lines 1 0xFFFFFFFFFFFFFFFF := by
  intro text shown
  have hsize : text.utf8ByteSize < UInt64.size := by decide
  have hshown : extract? text 1 0xFFFFFFFFFFFFFFFF = some shown := by decide
  obtain ⟨lines, hlined, -, hwindow⟩ := extract?_spec text 1 0xFFFFFFFFFFFFFFFF hsize
  exact ⟨hsize, hshown, lines, (hlined _).mpr rfl, (hwindow shown hshown).1⟩

end Context

end OriginMap
