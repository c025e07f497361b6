import Mathlib.Tactic.Ring
import OriginMap.Proofs.Text.Decimal
import OriginMap.Proofs.Time.Calendar
import OriginMap.Time.Rfc3339

/-!
# Timestamps read back

An instant is read back from its timestamp to the nanosecond. Only nanoseconds beyond a second that is not
the last one of its minute are read back as the second after it.
-/

namespace OriginMap.Time

/-! ## Runs of digits -/

/-- What follows starts with no digit. -/
def NoDigit (rest : List Char) : Prop := ∀ c ∈ rest.head?, Text.isDigit c = false

/-- A digit is no blank. -/
theorem isBlank_of_isDigit {c : Char} (hc : Text.isDigit c = true) : Text.isBlank c = false := by
  obtain ⟨hlow, hhigh⟩ := Text.isDigit_iff.mp hc
  rw [Text.isBlank, Text.inRanges, List.any_eq_false]
  intro range hrange
  rw [Bool.and_eq_true, decide_eq_true_eq, decide_eq_true_eq]
  have happart : ∀ range ∈ Text.blankRanges, range.2 < 48 ∨ 57 < range.1 := by decide
  have := happart range hrange
  omega

/-- Nothing is trimmed before what is no blank. -/
theorem trimStart_cons {c : Char} (hc : Text.isBlank c = false) (rest : List Char) :
    Text.trimStart (c :: rest) = c :: rest := by
  rw [Text.trimStart, List.dropWhile_cons_of_neg (by simp [hc])]

namespace Timestamp

/-- A run of digits ends where the digits end. -/
theorem digitRun_append {digits : List Char} (hdigits : ∀ c ∈ digits, Text.isDigit c = true)
    {limit : ℕ} (hlimit : digits.length ≤ limit) {rest : List Char} (hrest : NoDigit rest) :
    digitRun limit (digits ++ rest) = (digits, rest) := by
  induction digits generalizing limit with
  | nil =>
    cases rest with
    | nil => cases limit <;> rfl
    | cons c rest =>
      cases limit with
      | zero => rfl
      | succ limit => simp [digitRun, hrest c rfl]
  | cons c digits ih =>
    rw [List.length_cons] at hlimit
    obtain ⟨limit, rfl⟩ : ∃ count, limit = count + 1 := ⟨limit - 1, by omega⟩
    have hmore : digitRun limit (digits ++ rest) = (digits, rest) :=
      ih (fun d hd => hdigits d (by simp [hd])) (by omega)
    simp [digitRun, hdigits c (by simp), hmore]

/-- A number in decimal notation is read. -/
theorem number?_padded {limit width n : ℕ} (hwidth : 0 < width)
    (hlimit : (Text.padded width n).length ≤ limit) {rest : List Char} (hrest : NoDigit rest) :
    number? limit (Text.padded width n ++ rest) = some (n, rest) := by
  have hvalue := Text.digitsValue_padded width n
  obtain ⟨c, digits, hdigits, -⟩ := Text.padded_eq_cons hwidth n
  rw [number?, digitRun_append (Text.isDigit_of_mem_padded width n) hlimit hrest]
  rw [hdigits] at hvalue ⊢
  simp only [hvalue]

/-- Nothing is trimmed before a number. -/
theorem trimStart_padded {width n : ℕ} (hwidth : 0 < width) (rest : List Char) :
    Text.trimStart (Text.padded width n ++ rest) = Text.padded width n ++ rest := by
  obtain ⟨c, digits, hdigits, hc⟩ := Text.padded_eq_cons hwidth n
  rw [hdigits, List.cons_append, trimStart_cons (isBlank_of_isDigit hc)]

/-- A field of two digits is read. -/
theorem field?_padded {n : ℕ} (hn : n < 100) {rest : List Char} (hrest : NoDigit rest) :
    field? (Text.padded 2 n ++ rest) = some (n, rest) := by
  rw [field?, trimStart_padded (by omega)]
  exact number?_padded (by omega) (Text.length_padded (by omega) hn).le hrest

/-- A separator is read. -/
theorem separator?_cons {c : Char} (hc : Text.isBlank c = false) (rest : List Char) :
    separator? c (c :: rest) = some rest := by
  rw [separator?, trimStart_cons hc]
  exact if_pos rfl

/-- A year is read up to the dash behind it. -/
theorem year?_yearText (year : ℤ) (rest : List Char) :
    year? (yearText year ++ '-' :: rest) = some (year, '-' :: rest) := by
  have hdash : NoDigit ('-' :: rest) := by
    intro c hc
    obtain rfl : '-' = c := by simpa using hc
    decide
  have hnumber {limit : ℕ} (hlimit : (Text.padded 4 year.natAbs).length ≤ limit) :=
    number?_padded (by omega) hlimit hdash
  have hsize : (Text.padded 4 year.natAbs).length ≤
      (Text.padded 4 year.natAbs ++ '-' :: rest).length := by
    rw [List.length_append]
    omega
  rw [yearText]
  by_cases hneg : year < 0
  · rw [if_pos hneg, year?, List.cons_append, trimStart_cons (by decide)]
    simp only [hnumber hsize, Option.map_some]
    congr 2
    omega
  · rw [if_neg hneg]
    by_cases hlong : 9999 < year
    · rw [if_pos hlong, year?, List.cons_append, trimStart_cons (by decide)]
      simp only [hnumber hsize, Option.map_some]
      congr 2
      omega
    · have hfour : (Text.padded 4 year.natAbs).length = 4 :=
        Text.length_padded (by omega) (by omega)
      have hread := hnumber hfour.le
      obtain ⟨c, digits, hdigits, hc⟩ := Text.padded_eq_cons (show 0 < 4 by omega) year.natAbs
      have hvalue : (year.natAbs : ℤ) = year := by omega
      rw [if_neg hlong, year?, trimStart_padded (by omega)]
      split
      · next heq =>
        rw [hdigits, List.cons_append, List.cons.injEq] at heq
        rw [heq.1] at hc
        cases hc
      · next heq =>
        rw [hdigits, List.cons_append, List.cons.injEq] at heq
        rw [heq.1] at hc
        cases hc
      · simp only [hread, Option.map_some, hvalue]

/-- Some digits behind a point are read as nanoseconds. -/
theorem fraction?_padded {width n : ℕ} (hwidth : 0 < width) (hle : width ≤ 9) (hn : n < 10 ^ width)
    {rest : List Char} (hrest : NoDigit rest) :
    fraction? ('.' :: Text.padded width n ++ rest) = some (n * 10 ^ (9 - width), rest) := by
  have hlength := Text.length_padded hwidth hn
  have hvalue := Text.digitsValue_padded width n
  have hrun := digitRun_append (Text.isDigit_of_mem_padded width n) (hlength.le.trans hle) hrest
  have hdrop : rest.dropWhile Text.isDigit = rest := by
    cases rest with
    | nil => rfl
    | cons c rest => rw [List.dropWhile_cons_of_neg (by simp [hrest c rfl])]
  obtain ⟨c, digits, hdigits, -⟩ := Text.padded_eq_cons hwidth n
  rw [List.cons_append, fraction?, hrun]
  rw [hdigits] at hvalue hlength ⊢
  simp only [hvalue, hlength, hdrop]
  rfl

/-- A fraction is read up to the letter behind it. -/
theorem fraction?_fractionText {nanos : ℕ} (hnanos : nanos < secondNanos) (rest : List Char) :
    fraction? (fractionText nanos ++ 'Z' :: rest) = some (nanos, 'Z' :: rest) := by
  have hletter : NoDigit ('Z' :: rest) := by
    intro c hc
    obtain rfl : 'Z' = c := by simpa using hc
    decide
  unfold secondNanos at hnanos
  rw [fractionText]
  by_cases hnone : nanos = 0
  · rw [if_pos hnone, hnone]
    rfl
  · rw [if_neg hnone]
    by_cases hmilli : nanos % 1000000 = 0
    · have hback : nanos / 1000000 * 10 ^ (9 - 3) = nanos := by omega
      rw [if_pos hmilli, fraction?_padded (by omega) (by omega) (by omega) hletter, hback]
    · rw [if_neg hmilli]
      by_cases hmicro : nanos % 1000 = 0
      · have hback : nanos / 1000 * 10 ^ (9 - 6) = nanos := by omega
        rw [if_pos hmicro, fraction?_padded (by omega) (by omega) (by omega) hletter, hback]
      · rw [if_neg hmicro, fraction?_padded (by omega) (by omega) (by omega) hletter]
        simp

/-- A zone that is the letter Z has no offset. -/
theorem zone?_letter : zone? (Text.trimStart ['Z']) = some (0, []) := by
  decide

/-- What can be read as a date and a time of day is read as the instant of them. -/
theorem read?_spelled {date : Date} {hour minute second nanos : ℕ} (hmonth : date.month < 100)
    (hday : date.day < 100) (hhour : hour < 100) (hminute : minute < 100) (hsecond : second < 100)
    (hnanos : nanos < secondNanos) :
    read? (yearText date.year ++ '-' :: Text.padded 2 date.month ++ '-' :: Text.padded 2 date.day
      ++ 'T' :: Text.padded 2 hour ++ ':' :: Text.padded 2 minute ++ ':' :: Text.padded 2 second
      ++ fractionText nanos ++ ['Z']) = assemble? date hour minute second nanos 0 := by
  have hstop {c : Char} (hc : Text.isDigit c = false) (rest : List Char) : NoDigit (c :: rest) := by
    intro d hd
    obtain rfl : c = d := by simpa using hd
    exact hc
  have hbehind : NoDigit (fractionText nanos ++ ['Z']) := by
    rw [fractionText]
    split_ifs
    · exact hstop (by decide) _
    · exact hstop (by decide) _
    · exact hstop (by decide) _
    · exact hstop (by decide) _
  have hdash : Text.isBlank '-' = false := by decide
  have hcolon : Text.isBlank ':' = false := by decide
  simp only [List.append_assoc, List.cons_append]
  simp only [read?, year?_yearText, separator?_cons hdash, separator?_cons hcolon,
    field?_padded hmonth (hstop (show Text.isDigit '-' = false by decide) _),
    field?_padded hday (hstop (show Text.isDigit 'T' = false by decide) _),
    field?_padded hhour (hstop (show Text.isDigit ':' = false by decide) _),
    field?_padded hminute (hstop (show Text.isDigit ':' = false by decide) _),
    field?_padded hsecond hbehind, fraction?_fractionText hnanos, zone?_letter,
    Option.bind_eq_bind, Option.bind_some]
  rfl

/-- What a date and a time of day are put together to lies in the range that is kept. -/
theorem kept_of_assemble? {date : Date} {hour minute second nanos : ℕ} {ahead : ℤ} {t : Instant}
    (h : assemble? date hour minute second nanos ahead = some t) : t.kept = true := by
  simp only [assemble?, Option.ite_none_right_eq_some, Option.some.injEq] at h
  obtain ⟨-, hkept, rfl⟩ := h
  exact hkept

/-- What is read as an instant lies in the range that is kept. -/
theorem kept_of_read? {text : List Char} {t : Instant} (h : read? text = some t) :
    t.kept = true := by
  simp only [read?, Option.bind_eq_bind, Option.bind_eq_some_iff] at h
  obtain ⟨_, -, _, -, _, -, h⟩ := h
  split at h
  all_goals
    simp only [Option.bind_some, Option.bind_none, Option.bind_eq_some_iff,
      Option.ite_none_right_eq_some, reduceCtorEq] at h
  all_goals
    obtain ⟨_, -, _, -, _, -, _, -, _, -, -, h⟩ := h
    exact kept_of_assemble? h

end Timestamp

/-! ## Instants -/

namespace Instant

/-- The instant that the timestamp of an instant names: with nanoseconds beyond a second that is not the
last one of its minute, the second after it. -/
def named (t : Instant) : Instant :=
  if secondNanos ≤ t.nanos ∧ t.seconds % 60 ≠ 59 then ⟨t.seconds + 1, t.nanos - secondNanos⟩ else t

/-- Without such nanoseconds an instant names itself. -/
theorem named_eq {t : Instant} (h : t.nanos < secondNanos ∨ t.seconds % 60 = 59) : t.named = t := by
  rw [named, if_neg]
  omega

/-- The seconds of the instant that a timestamp names. -/
theorem named_seconds (t : Instant) : t.named.seconds =
    if secondNanos ≤ t.nanos ∧ t.seconds % 60 ≠ 59 then t.seconds + 1 else t.seconds := by
  rw [named]
  split_ifs <;> rfl

/-- The nanoseconds of the instant that a timestamp names. -/
theorem named_nanos (t : Instant) : t.named.nanos =
    if secondNanos ≤ t.nanos ∧ t.seconds % 60 ≠ 59 then t.nanos - secondNanos else t.nanos := by
  rw [named]
  split_ifs <;> rfl

/-- The seconds of the instants that are kept. -/
theorem kept_iff {t : Instant} : t.kept = true ↔
    (Date.mk (-262143) 1 1).number * 86400 ≤ t.seconds ∧
      t.seconds < (Date.mk 262143 1 1).number * 86400 := by
  have hfirst : first.seconds = (Date.mk (-262143) 1 1).number * 86400 := rfl
  have hlast : lastSecond = (Date.mk 262143 1 1).number * 86400 - 1 := rfl
  rw [kept, Bool.and_eq_true, decide_eq_true_eq, decide_eq_true_eq, hfirst, hlast]
  omega

/-- Instants that are kept have dates in range. -/
theorem year_of_kept {t : Instant} (h : t.kept = true) :
    -262143 ≤ (Date.ofNumber (t.seconds / 86400)).year ∧
      (Date.ofNumber (t.seconds / 86400)).year ≤ 262142 := by
  obtain ⟨hfirst, hlast⟩ := kept_iff.mp h
  exact year_ofNumber (by omega) (by omega)

/-- The second after one that is not the last of its minute is kept. -/
theorem kept_named {t : Instant} (h : t.kept = true) : t.named.kept = true := by
  rw [kept_iff, number_bounds.1, number_bounds.2] at h ⊢
  rw [named_seconds]
  split_ifs <;> omega

/-- The seconds of a day as hours, minutes and seconds. -/
theorem ofDay_sum (ofDay : ℕ) :
    ofDay / 3600 * 3600 + ofDay / 60 % 60 * 60 + ofDay % 60 = ofDay := by
  omega

/-- The instant of a second of a day, of which nothing was taken away, is kept. -/
theorem assemble?_eq_some {date : Date} {hour minute second nanos : ℕ} {t : Instant}
    (hvalid : date.valid = true) (hyear : -262143 ≤ date.year ∧ date.year ≤ 262142)
    (hhour : hour ≤ 23) (hminute : minute ≤ 59) (hsecond : second ≤ 60)
    (hseconds : t.seconds = date.number * 86400 +
      ((hour * 3600 + minute * 60 + if second = 60 then 59 else second : ℕ) : ℤ))
    (hnanos : t.nanos = if second = 60 then nanos + secondNanos else nanos)
    (hkept : t.kept = true) :
    Timestamp.assemble? date hour minute second nanos 0 = some t := by
  have hinstant : (⟨date.number * daySeconds +
      ((hour * 3600 + minute * 60 + if second = 60 then 59 else second : ℕ) : ℤ) - 0,
        if second = 60 then nanos + secondNanos else nanos⟩ : Instant) = t := by
    cases t
    subst hseconds hnanos
    rw [Int.sub_zero]
    rfl
  rw [Timestamp.assemble?, if_pos ⟨hvalid, hyear.1, hyear.2, hhour, hminute, hsecond⟩]
  simp only [hinstant, hkept, if_true]

/-- What a timestamp says is put together to the instant that it names. -/
theorem assemble?_timestamp {t : Instant} (hkept : t.kept = true) {ofDay : ℕ}
    (hofDay : (t.seconds % 86400).toNat = ofDay) :
    Timestamp.assemble? (Date.ofNumber (t.seconds / 86400)) (ofDay / 3600) (ofDay / 60 % 60)
      (if secondNanos ≤ t.nanos then ofDay % 60 + 1 else ofDay % 60)
      (if secondNanos ≤ t.nanos then t.nanos - secondNanos else t.nanos) 0 = some t.named := by
  have hnumber := number_ofNumber (t.seconds / 86400)
  have hsum := ofDay_sum ofDay
  have hkeptNamed := kept_named hkept
  have hsecond : (if secondNanos ≤ t.nanos then ofDay % 60 + 1 else ofDay % 60) ≤ 60 := by
    split_ifs <;> omega
  refine assemble?_eq_some (valid_ofNumber _) (year_of_kept hkept) (by omega) (by omega) hsecond ?_ ?_
    hkeptNamed
  · rw [hnumber, named_seconds]
    split_ifs <;> omega
  · rw [named_nanos]
    split_ifs <;> omega

/-- An instant is read back from its timestamp as the one that the timestamp names. -/
theorem read?_timestamp {t : Instant} (hkept : t.kept = true) (hnanos : t.nanos < 2 * secondNanos) :
    Timestamp.read? t.timestamp = some t.named := by
  have hvalid := valid_ofNumber (t.seconds / 86400)
  simp only [Date.valid, Bool.and_eq_true, decide_eq_true_eq] at hvalid
  have hday : daysIn (Date.ofNumber (t.seconds / 86400)).year
      (Date.ofNumber (t.seconds / 86400)).month ≤ 31 := by
    rw [daysIn]
    split_ifs <;> omega
  have hdaySeconds : (daySeconds : ℤ) = 86400 := rfl
  rw [← assemble?_timestamp hkept rfl, timestamp, hdaySeconds]
  refine Timestamp.read?_spelled ?_ ?_ ?_ ?_ ?_ ?_
  · omega
  · omega
  · omega
  · omega
  · split_ifs <;> omega
  · split_ifs <;> omega

/-- An instant that can be told from its timestamp: it is kept, and it lies beyond a second only if that is
the last one of its minute. -/
structure Shown (t : Instant) : Prop where
  /-- It lies in the range that is kept. -/
  kept : t.kept = true
  /-- It lies in its second, or in a leap second after the last one of a minute. -/
  nanos : t.nanos < secondNanos ∨ t.nanos < 2 * secondNanos ∧ t.seconds % 60 = 59

/-- An instant that can be told from its timestamp is read back from it. -/
theorem Shown.read?_timestamp {t : Instant} (h : t.Shown) :
    Timestamp.read? t.timestamp = some t := by
  have hnamed : t.named = t := named_eq (h.nanos.imp_right And.right)
  have hnanos : t.nanos < 2 * secondNanos := by
    rcases h.nanos with hnanos | ⟨hnanos, -⟩
    · omega
    · exact hnanos
  have hread := Instant.read?_timestamp h.kept hnanos
  rwa [hnamed] at hread

/-- An instant that is kept and in no leap second is read back from its timestamp. -/
theorem read?_timestamp_eq {t : Instant} (hkept : t.kept = true) (hnanos : t.nanos < secondNanos) :
    Timestamp.read? t.timestamp = some t :=
  Shown.read?_timestamp ⟨hkept, Or.inl hnanos⟩

end Instant

end OriginMap.Time
